import Pumpy.Supervisor.Workers

/-
  Wallets in back-off.  A timer that comes back without its
  wallet is gone, and the wallet stays in back-off: nothing but
  a restart message takes it out, and no message is to come.

  Key definitions include:
    * `StrandedForEver`
    * `Unstranded`
    * `TimerFinds`

  The main results are `unstranded_iff` and `not_unstranded`.
-/

namespace Pumpy

open Interleaving

namespace Orchestrator

------------------------------------------------------------
-- What is promised
------------------------------------------------------------

/- The wallet has a row of the registry that says so. -/
def Enabled (o : Orchestrator) (w : WalletId) : Prop :=
  ∃ row ∈ o.registry,
    row.walletId = w ∧ row.registryStatus = "enabled"

/- Whatever happens, the spawn branch goes on to refuse the wallet. -/
def StrandedForEver (o : Orchestrator) (w : WalletId) : Prop :=
  ∀ o', system.Reaches o o' → w ∈ o'.sup.inBackoff

/- No wallet is stranded in back-off. -/
structure Unstranded (o : Orchestrator) : Prop where
  waits : ∀ w ∈ o.sup.inBackoff, w ∈ o.restarts
  recovers :
    ∀ w,
      o.Enabled w → w ∉ o.unjoined →
        w ∉ o.sup.permanentlySkipped → ¬StrandedForEver o w

/-
  If a restart timer asks for the enabled wallets, the statement
  succeeds and its wallet is enabled.
-/
def TimerFinds (o : Orchestrator) : OrchestratorEvent → Prop
  | .timerQuery i ok =>
      ∀ timer,
        o.timers[i]? = some timer → ok = true ∧ o.Enabled timer.wid
  | _ => True

section Backoff

variable {o o' : Orchestrator} {e : OrchestratorEvent}
variable {w : WalletId}

/- A timer comes back with its wallet if it is enabled. -/
theorem lookUp_ne_none_iff
    {ok : Bool} :
    o.lookUp w ok ≠ none ↔ ok = true ∧ o.Enabled w := by
  unfold lookUp loadEnabledWalletFullEntries Enabled
  cases ok with
  | false => simp
  | true =>
    simp only [if_true, ne_eq, List.find?_eq_none, List.mem_filter,
      decide_eq_true_eq, not_forall, true_and]
    constructor
    · rintro ⟨row, ⟨hMem, hEnabled⟩, hSame⟩
      exact ⟨row, hMem, not_not.mp hSame, hEnabled⟩
    · rintro ⟨row, hMem, hSame, hEnabled⟩
      exact ⟨row, ⟨hMem, hEnabled⟩, not_not.mpr hSame⟩

------------------------------------------------------------
-- Where every timer finds its wallet
------------------------------------------------------------

/- What one event preserves, if its timer finds the wallet. -/
theorem waits_step
    (hO : Consistent o)
    (hWaits : ∀ w ∈ o.sup.inBackoff, w ∈ o.restarts)
    (hFinds : TimerFinds o e)
    (hStep : o.step e = some o') :
    ∀ w ∈ o'.sup.inBackoff, w ∈ o'.restarts := by
  intro w hIn
  cases restartEffect_of_does hO (does_of_step hStep) with
  | kept hRestarts hBackoff _ =>
    rw [hBackoff] at hIn
    exact hRestarts.mem_iff.mp (hWaits w hIn)
  | answered _ hRestarts hBackoff _ =>
    rcases (hBackoff w).mp hIn with ⟨hWas, hOther⟩
    rcases List.mem_cons.mp (hRestarts.mem_iff.mp (hWaits w hWas)) with
      hSame | hStill
    · exact absurd hSame hOther
    · exact hStill
  | begun _ hRestarts hBackoff _ =>
    rw [hRestarts.mem_iff, List.mem_cons]
    rcases (hBackoff w).mp hIn with hNew | hWas
    · exact .inl hNew
    · exact .inr (hWaits w hWas)
  | lost hTimer hNone _ _ _ =>
    exact absurd hNone (lookUp_ne_none_iff.mpr (hFinds _ hTimer))

theorem waits_of_meets
    {registry : List WalletFullEntry}
    {es : List OrchestratorEvent}
    (hMeets : system.Meets TimerFinds (.new registry) es)
    (hExec : system.exec (.new registry) es = some o) :
    ∀ w ∈ o.sup.inBackoff, w ∈ o.restarts := by
  refine system.exec_invariant
    (P := fun _ o => ∀ w ∈ o.sup.inBackoff, w ∈ o.restarts) ?_ ?_
    hMeets hExec
  · intro w hIn
    cases hIn
  · intro es o e o' hBefore hWaits hFinds hStep
    exact waits_step (consistent_of_exec hBefore) hWaits hFinds hStep

------------------------------------------------------------
-- Recovery
------------------------------------------------------------

/- The loop comes back to its select. -/
theorem reaches_select
    (o : Orchestrator) :
    system.Reaches o
      { o with sup := { o.sup with awaiting := .select } } := by
  rcases o with ⟨sup, spawnRx, restartRx, timers, feeding, registry⟩
  rcases sup with ⟨js, ids, backoff, runs, builds, skipped, awaiting⟩
  cases awaiting with
  | select => exact .refl _
  | haltRegistry walletId =>
    exact .trans
      (Transition.reaches_of_step (.haltStatement false) rfl)
      (Transition.reaches_of_step (.haltStatement false) rfl)
  | haltConfig walletId =>
    exact Transition.reaches_of_step (.haltStatement false) rfl

/- Every queued message is processed, sooner or later. -/
theorem exists_drained
    (o : Orchestrator) :
    ∃ o',
      system.Reaches o o' ∧ o'.sup.awaiting = .select ∧
        o'.restartRx = [] ∧ o'.timers = o.timers ∧
          o'.registry = o.registry ∧
            ∀ w ∈ o'.sup.inBackoff,
              w ∈ o.sup.inBackoff ∧
                w ∉ o.restartRx.map WalletFullEntry.walletId := by
  cases hMessages : o.restartRx with
  | nil =>
    exact ⟨_, reaches_select o, rfl, hMessages, rfl, rfl,
      fun w hIn => ⟨hIn, List.not_mem_nil⟩⟩
  | cons entry rest =>
    have hStep :
        system.step { o with sup := { o.sup with awaiting := .select } }
            (.restart (.readError "")) =
          some
            { o with
              sup :=
                { o.sup with awaiting := .select }.onRestart entry
                  (.readError "")
              restartRx := rest } := by
      simp [system, step, restart, hMessages]
    have hShorter : rest.length < o.restartRx.length := by
      rw [hMessages]
      exact Nat.lt_succ_self _
    rcases exists_drained
        { o with
          sup :=
            { o.sup with awaiting := .select }.onRestart entry
              (.readError "")
          restartRx := rest } with
      ⟨o', hReaches, hSelect, hEmpty, hTimers, hRegistry, hOut⟩
    refine ⟨o', ((reaches_select o).trans
      (Transition.reaches_of_step _ hStep)).trans hReaches, hSelect,
      hEmpty, hTimers, hRegistry, fun w hIn => ?_⟩
    rcases hOut w hIn with ⟨hWas, hLater⟩
    have hBackoff :
        w ∈ o.sup.inBackoff ∧ w ≠ entry.walletId := by
      unfold Supervisor.onRestart at hWas
      dsimp only at hWas
      split at hWas
      · simpa using hWas
      · simpa using hWas
    refine ⟨hBackoff.1, ?_⟩
    rw [List.map_cons, List.mem_cons]
    rintro (hSame | hMem)
    · exact hBackoff.2 hSame
    · exact hLater hMem
termination_by o.restartRx.length

/- A timer that has found its wallet gets it out of back-off. -/
theorem exists_recovered_of_found
    {i : Nat}
    {timer : Timer}
    {entry : WalletFullEntry}
    (hO : Consistent o)
    (hTimer : o.timers[i]? = some timer)
    (hFound : timer.found = some entry) :
    ∃ o', system.Reaches o o' ∧ timer.wid ∉ o'.sup.inBackoff := by
  rcases exists_drained o with
    ⟨o₁, hDrained, _, hEmpty, hTimers, _, _⟩
  have hEntry :=
    hO.found timer (List.mem_of_getElem? hTimer) entry hFound
  have hSend :
      system.step o₁ (.timerSend i) =
        some
          { o₁ with
            timers := o₁.timers.eraseIdx i
            restartRx := [entry] } := by
    simp [system, step, timerSend, hTimers, hTimer, hFound, hEmpty,
      channelCapacity]
  rcases exists_drained
      { o₁ with
        timers := o₁.timers.eraseIdx i
        restartRx := [entry] } with
    ⟨o₂, hAgain, _, _, _, _, hOut⟩
  refine ⟨o₂, (hDrained.trans
    (Transition.reaches_of_step _ hSend)).trans hAgain, fun hIn => ?_⟩
  exact (hOut _ hIn).2 (by simp [hEntry])

/- A wallet that is enabled and waits gets out of back-off. -/
theorem exists_recovered
    (hO : Consistent o)
    (hEnabled : o.Enabled w)
    (hWaits : w ∈ o.restarts) :
    ∃ o', system.Reaches o o' ∧ w ∉ o'.sup.inBackoff := by
  rcases List.mem_append.mp hWaits with hTimer | hMessage
  · rcases List.mem_map.mp hTimer with ⟨timer, hMem, rfl⟩
    rcases List.getElem?_of_mem hMem with ⟨i, hAt⟩
    cases hFound : timer.found with
    | some entry => exact exists_recovered_of_found hO hAt hFound
    | none =>
      rcases Option.ne_none_iff_exists'.mp
          (lookUp_ne_none_iff.mpr ⟨rfl, hEnabled⟩) with
        ⟨entry, hLookUp⟩
      have hQuery :
          o.step (.timerQuery i true) =
            some
              { o with
                timers :=
                  o.timers.set i { timer with found := some entry } } := by
        simp [step, timerQuery, hAt, hFound, hLookUp]
      have hSet :
          (o.timers.set i { timer with found := some entry })[i]? =
            some { timer with found := some entry } := by
        rw [List.getElem?_set_self (List.getElem?_eq_some_iff.mp hAt).1]
      rcases exists_recovered_of_found (hO.step hQuery) hSet rfl with
        ⟨o', hReaches, hOut⟩
      exact ⟨o',
        (Transition.reaches_of_step (.timerQuery i true) hQuery).trans
          hReaches,
        hOut⟩
  · rcases exists_drained o with
      ⟨o', hReaches, _, _, _, _, hOut⟩
    exact ⟨o', hReaches, fun hIn => (hOut w hIn).2 hMessage⟩

theorem unstranded_of_waits
    (hO : Consistent o)
    (hWaits : ∀ w ∈ o.sup.inBackoff, w ∈ o.restarts) :
    Unstranded o := by
  refine ⟨hWaits, fun w hEnabled _ _ hForever => ?_⟩
  rcases exists_recovered hO hEnabled
      (hWaits w (hForever o (.refl o))) with
    ⟨o', hReaches, hOut⟩
  exact hOut (hForever o' hReaches)

------------------------------------------------------------
-- Where a timer is lost
------------------------------------------------------------

/- A wallet nothing is to restart stays in back-off. -/
theorem strandedForEver_of_lost
    (hO : Consistent o)
    (hIn : w ∈ o.sup.inBackoff)
    (hLost : w ∉ o.restarts)
    (hIdle : w ∉ o.unjoined) :
    StrandedForEver o w := by
  intro o' hReaches
  have hInv :
      Consistent o' ∧ w ∈ o'.sup.inBackoff ∧ w ∉ o'.restarts ∧
        w ∉ o'.unjoined := by
    refine hReaches.invariant
      (P := fun o => Consistent o ∧ w ∈ o.sup.inBackoff ∧
        w ∉ o.restarts ∧ w ∉ o.unjoined)
      ⟨hO, hIn, hLost, hIdle⟩ ?_
    rintro o e o' ⟨hO, hIn, hLost, hIdle⟩ hStep
    have hAfter := hO.step hStep
    refine ⟨hAfter, ?_⟩
    rw [mem_unjoined_iff hO] at hIdle
    rw [mem_unjoined_iff hAfter]
    cases restartEffect_of_does hO (does_of_step hStep) with
    | kept hRestarts hBackoff hActive =>
      refine ⟨hBackoff ▸ hIn, hRestarts.mem_iff.not.mp hLost,
        fun hNow => ?_⟩
      rcases hActive w hNow with hWas | hOut
      · exact hIdle hWas
      · exact hOut hIn
    | @answered file o' entry rest hMessage hRestarts hBackoff hActive =>
      have hOther : w ≠ entry.walletId := by
        rintro rfl
        exact hLost (hRestarts.mem_iff.mpr List.mem_cons_self)
      refine ⟨(hBackoff w).mpr ⟨hIn, hOther⟩, fun hMem => ?_,
        fun hNow => ?_⟩
      · exact hLost (hRestarts.mem_iff.mpr (List.mem_cons_of_mem _ hMem))
      · rcases hActive w hNow with hWas | hSame
        · exact hIdle hWas
        · exact hOther hSame
    | @begun i v o' hWas hRestarts hBackoff hActive =>
      refine ⟨(hBackoff w).mpr (.inr hIn), fun hMem => ?_,
        fun hNow => hIdle (hActive w hNow).1⟩
      rcases List.mem_cons.mp (hRestarts.mem_iff.mp hMem) with
        rfl | hOld
      · exact hIdle ((mem_unjoined_iff hO).mp hWas)
      · exact hLost hOld
    | lost _ _ hRestarts hBackoff hActive =>
      refine ⟨hBackoff ▸ hIn, fun hMem => ?_, hActive ▸ hIdle⟩
      exact hLost (hRestarts.mem_iff.mpr (List.mem_cons_of_mem _ hMem))
  exact hInv.2.1

/- A timer that does not find its wallet leaves it in back-off alone. -/
theorem not_waits_of_forgets
    {i : Nat}
    {ok : Bool}
    {timer : Timer}
    (hO : Consistent o)
    (hTimer : o.timers[i]? = some timer)
    (hNone : o.lookUp timer.wid ok = none)
    (hStep : o.step (.timerQuery i ok) = some o') :
    ∃ w ∈ o'.sup.inBackoff, w ∉ o'.restarts := by
  have hMem : timer.wid ∈ o.restarts :=
    List.mem_append_left _
      (List.mem_map_of_mem (List.mem_of_getElem? hTimer))
  have hIn := (hO.backedOff _ hMem).1
  have hPerm := perm_map_eraseIdx Timer.wid hTimer
  have hNodup :=
    (hPerm.append_right _).nodup_iff.mp hO.restartsOnce
  have hGone := (List.nodup_cons.mp hNodup).1
  cases does_of_step hStep with
  | forgets _ _ _ => exact ⟨timer.wid, hIn, hGone⟩
  | finds hOther _ hSome =>
    rw [hTimer] at hOther
    cases hOther
    rw [hNone] at hSome
    cases hSome

end Backoff

end Orchestrator

------------------------------------------------------------
-- The condition
------------------------------------------------------------

/-
  In a run no wallet is ever stranded in back-off exactly if
  every restart timer that asks for the enabled wallets gets an
  answer, and its wallet is among them.
-/
theorem unstranded_iff
    {registry : List WalletFullEntry}
    {es : List OrchestratorEvent}
    {o : Orchestrator}
    (hExec : Orchestrator.system.exec (.new registry) es = some o) :
    Orchestrator.system.Throughout Orchestrator.Unstranded
        (.new registry) es ↔
      Orchestrator.system.Meets Orchestrator.TimerFinds
        (.new registry) es := by
  constructor
  · intro hUnstranded pre e post t hSplit hPre
    cases e with
    | timerQuery i ok =>
      intro timer hTimer
      have hO := Orchestrator.consistent_of_exec hPre
      by_contra hNot
      have hNone : t.lookUp timer.wid ok = none := by
        by_contra hSome
        exact hNot (Orchestrator.lookUp_ne_none_iff.mp hSome)
      rw [hSplit] at hExec
      rcases Transition.exec_append.mp hExec with ⟨m, hSame, hRest⟩
      rw [hPre] at hSame
      cases hSame
      rcases Transition.exec_cons.mp hRest with ⟨after, hStep, _⟩
      rcases Orchestrator.not_waits_of_forgets hO hTimer hNone hStep
        with ⟨w, hIn, hLost⟩
      have hHere :=
        hUnstranded (pre ++ [.timerQuery i ok]) post after
          (by rw [hSplit, List.append_assoc]; rfl)
          (Transition.exec_append_singleton.mpr ⟨t, hPre, hStep⟩)
      exact hLost (hHere.waits w hIn)
    | restart _ => trivial
    | spawn _ => trivial
    | join _ => trivial
    | haltStatement _ => trivial
    | workerEnds _ _ => trivial
    | clientFails _ => trivial
    | ownHalt _ _ => trivial
    | timerSend _ => trivial
    | load _ => trivial
    | feed => trivial
    | registry _ => trivial
  · intro hMeets pre post t hSplit hPre
    rw [hSplit] at hMeets
    exact Orchestrator.unstranded_of_waits
      (Orchestrator.consistent_of_exec hPre)
      (Orchestrator.waits_of_meets hMeets.earlier hPre)

/- The worker of a wallet that stays enabled is restarted. -/
theorem unstranded_sampleRestart :
    ∃ o,
      Orchestrator.system.exec (.new [sampleRow]) sampleRestart =
          some o ∧
        (Orchestrator.system.Throughout Orchestrator.Unstranded
            (.new [sampleRow]) sampleRestart ↔
          Orchestrator.system.Meets Orchestrator.TimerFinds
            (.new [sampleRow]) sampleRestart) := by
  rcases Orchestrator.system.exists_exec_of_any (.new [sampleRow])
      sampleRestart (fun _ => true) (by decide +kernel) with
    ⟨o, hExec, _⟩
  exact ⟨o, hExec, unstranded_iff hExec⟩

/-
  A worker exits, its wallet is paused while the timer sleeps,
  and resumed after the timer has asked.  The wallet is enabled,
  has no worker, is not skipped, and is refused for ever.
-/
theorem not_unstranded :
    ∃ registry es o w,
      Orchestrator.system.exec (.new registry) es = some o ∧
        o.Enabled w ∧ w ∉ o.unjoined ∧
          w ∉ o.sup.permanentlySkipped ∧
            Orchestrator.StrandedForEver o w ∧
              ¬Orchestrator.Unstranded o := by
  rcases Orchestrator.system.exists_exec_of_any (.new [sampleRow])
      (sampleStart ++
        [.workerEnds 0 .panicked, .join 0,
          .registry [{ sampleRow with registryStatus := "paused" }],
          .timerQuery 0 true, .registry [sampleRow]])
      (fun o =>
        o.registry = [sampleRow] ∧
          "wallet_001" ∈ o.sup.inBackoff ∧
            "wallet_001" ∉ o.restarts ∧
              "wallet_001" ∉ o.unjoined ∧
                "wallet_001" ∉ o.sup.permanentlySkipped)
      (by decide +kernel) with
    ⟨o, hExec, hState⟩
  rcases of_decide_eq_true hState with
    ⟨hRegistry, hIn, hLost, hIdle, hSkip⟩
  have hEnabled : o.Enabled "wallet_001" :=
    ⟨sampleRow, by rw [hRegistry]; exact List.mem_cons_self, rfl, rfl⟩
  have hForever :=
    Orchestrator.strandedForEver_of_lost
      (Orchestrator.consistent_of_exec hExec) hIn hLost hIdle
  exact ⟨_, _, o, _, hExec, hEnabled, hIdle, hSkip, hForever,
    fun hHolds => hHolds.recovers _ hEnabled hIdle hSkip hForever⟩

end Pumpy
