import Mathlib.Data.List.Chain
import Mathlib.Tactic.IntervalCases
import Pumpy.Supervisor.Workers

/-
  The restart budget of a wallet: its starts, back-offs and halt
  along a run of the supervisor.

  Key definitions include:
    * `Life`
    * `lifeOf`
    * `RestartBudget`
    * `Spares`

  The main result is `restartBudget_iff`: a wallet is never halted
  after the promised number of restarts.  The third exit halts
  it, with two restarts before it; and a worker that cannot build
  its client halts it itself, whatever the count.
-/

namespace Pumpy

open Interleaving

------------------------------------------------------------
-- The Life of a Wallet
------------------------------------------------------------

/- What happens to a wallet; a back-off comes with its seconds. -/
inductive Life where
  | started : Life
  | backoff (secs : ℕ) : Life
  | halted : Life
deriving DecidableEq, Repr

/- `2u64.pow(attempts)`. -/
def backoffSecs (attempts : ℕ) : ℕ :=
  2 ^ attempts

namespace Orchestrator

section Model

variable (w : WalletId)

/- What becomes of the wallet when its entry is to get a worker. -/
def spawnLife
    (sup : Supervisor)
    (entry : WalletFullEntry)
    (file : KeypairFile) : List Life :=
  match WorkerFactory.build entry file with
  | .built _ => [.started]
  | .failed _ =>
      if maxRestartAttempts ≤ sup.buildFails entry.walletId + 1 then
        [.halted]
      else
        []

/- What becomes of the wallet at an event. -/
def lifeOf (o : Orchestrator) (e : OrchestratorEvent) : List Life :=
  match e with
  | .restart file =>
      match o.restartRx with
      | entry :: _ =>
          if entry.walletId = w ∧ w ∉ o.sup.activeIds ∧
              w ∉ o.sup.permanentlySkipped then
            spawnLife o.sup entry file
          else
            []
      | [] => []
  | .spawn file =>
      match o.spawnRx with
      | entry :: _ =>
          if entry.walletId = w ∧ ¬o.sup.Refuses w then
            spawnLife o.sup entry file
          else
            []
      | [] => []
  | .join i =>
      match o.sup.js[i]? with
      | some task =>
          if task.worker.walletId = w then
            if maxRestartAttempts ≤ o.sup.runtimeFails w + 1 then
              [.halted]
            else
              [.backoff (backoffSecs (o.sup.runtimeFails w + 1))]
          else
            []
      | none => []
  | .ownHalt i ok =>
      match o.sup.js[i]? with
      | some task =>
          if task.worker.walletId = w then
            if ok then [.halted] else []
          else
            []
      | none => []
  | _ => []

/- The system, and the life of the wallet so far. -/
def watched : Transition OrchestratorEvent (Orchestrator × List Life) :=
  system.watch fun o e life => life ++ lifeOf w o e

end Model

end Orchestrator

------------------------------------------------------------
-- What is Promised
------------------------------------------------------------

/- The starts after the first back-off. -/
def restartsIn (life : List Life) : ℕ :=
  (life.dropWhile (· = .started)).count .started

/- The seconds of a back-off. -/
def Life.secs : Life → Option ℕ
  | .backoff secs => some secs
  | _ => none

/-
  Starts and back-offs alternate, each back-off is twice as long
  as the one before, and nothing is started after a halt.
-/
structure Orderly (life : List Life) : Prop where
  alternate :
    (life.filter (· ≠ .halted)).IsChain fun a b =>
      a = .started ↔ b ≠ .started
  doubled :
    (life.filterMap Life.secs).IsChain fun a b => b = 2 * a
  final :
    life.Pairwise fun a b => a = .halted → b ≠ .started

/- So it is, and a halt comes after the promised restarts. -/
structure RestartBudget (life : List Life) : Prop where
  orderly : Orderly life
  budget :
    ∀ n < life.length,
      life[n]? = some .halted →
        maxRestartAttempts ≤ restartsIn (life.take n)

instance (life : List Life) : Decidable (Orderly life) :=
  decidable_of_iff (_ ∧ _ ∧ _)
    ⟨fun h => ⟨h.1, h.2.1, h.2.2⟩, fun h => ⟨h.1, h.2, h.3⟩⟩

instance (life : List Life) : Decidable (RestartBudget life) :=
  decidable_of_iff (_ ∧ _)
    ⟨fun h => ⟨h.1, h.2⟩, fun h => ⟨h.1, h.2⟩⟩

------------------------------------------------------------
-- The Shape of a Life
------------------------------------------------------------

/- So many starts, each followed by the back-off after its exit. -/
def cycles (k : ℕ) : List Life :=
  (List.range k).flatMap fun j => [.started, .backoff (backoffSecs (j + 1))]

theorem cycles_succ (k : ℕ) :
    cycles (k + 1) =
      cycles k ++ [.started, .backoff (backoffSecs (k + 1))] := by
  unfold cycles
  rw [List.range_succ, List.flatMap_append, List.flatMap_singleton]

/- A wallet that is not halted, with or without a worker. -/
theorem restartBudget_cycles
    {k : ℕ}
    (hK : k ≤ 2) :
    RestartBudget (cycles k) ∧
      RestartBudget (cycles k ++ [.started]) := by
  interval_cases k <;> decide

/- A wallet that is halted after so few restarts. -/
theorem not_restartBudget_halted
    {k : ℕ}
    (hK : k ≤ 2) :
    ¬RestartBudget (cycles k ++ [.halted]) ∧
      ¬RestartBudget (cycles k ++ [.started] ++ [.halted]) := by
  interval_cases k <;> decide

/- What is out of its budget stays so. -/
theorem RestartBudget.earlier
    {life more : List Life}
    (hBudget : RestartBudget (life ++ more)) :
    RestartBudget life := by
  rcases hBudget with ⟨⟨hAlternate, hDoubled, hFinal⟩, hMany⟩
  rw [List.filter_append] at hAlternate
  rw [List.filterMap_append] at hDoubled
  refine ⟨⟨hAlternate.left_of_append, hDoubled.left_of_append,
    (List.pairwise_append.mp hFinal).1⟩, fun n hLt hHalted => ?_⟩
  have hLonger : n < (life ++ more).length := by
    rw [List.length_append]
    omega
  have hAt := hMany n hLonger
  rw [List.getElem?_append_left hLt,
    List.take_append_of_le_length (Nat.le_of_lt hLt)] at hAt
  exact hAt hHalted

namespace Orchestrator

section Shape

variable {w : WalletId} {sup sup' : Supervisor}
variable {life : List Life}

/- The life of a wallet that was never halted. -/
def soFar (w : WalletId) (sup : Supervisor) : List Life :=
  cycles (sup.runtimeFails w) ++
    (if w ∈ sup.activeIds then [.started] else [])

/- What the supervisor's variables say of the life of the wallet. -/
structure Shaped
    (w : WalletId)
    (sup : Supervisor)
    (life : List Life) : Prop where
  alive :
    .halted ∉ life →
      w ∉ sup.permanentlySkipped ∧ sup.runtimeFails w ≤ 2 ∧
        life = soFar w sup
  halted : .halted ∈ life → ¬RestartBudget life

/- An event leaves the wallet alone, or is one of its life. -/
inductive LifeEffect
    (w : WalletId)
    (sup sup' : Supervisor) : List Life → Prop
  | nothing
      (hActive : w ∈ sup'.activeIds ↔ w ∈ sup.activeIds)
      (hSkipped :
        w ∈ sup'.permanentlySkipped ↔ w ∈ sup.permanentlySkipped)
      (hFails : sup'.runtimeFails w = sup.runtimeFails w) :
      LifeEffect w sup sup' []
  | starts
      (hIdle : w ∉ sup.activeIds)
      (hActive : w ∈ sup'.activeIds)
      (hSkipped : w ∉ sup'.permanentlySkipped)
      (hFails : sup'.runtimeFails w = sup.runtimeFails w) :
      LifeEffect w sup sup' [.started]
  | backsOff
      (hActive : w ∈ sup.activeIds)
      (hIdle : w ∉ sup'.activeIds)
      (hSkipped :
        w ∈ sup'.permanentlySkipped ↔ w ∈ sup.permanentlySkipped)
      (hFew : sup.runtimeFails w + 1 < maxRestartAttempts)
      (hFails :
        sup'.runtimeFails w = sup.runtimeFails w + 1) :
      LifeEffect w sup sup'
        [.backoff (backoffSecs (sup.runtimeFails w + 1))]
  | halts : LifeEffect w sup sup' [.halted]

/- The life goes on as the variables do, or the wallet is halted. -/
theorem soFar_step
    {more : List Life}
    (hAlive : w ∉ sup.permanentlySkipped)
    (hFew : sup.runtimeFails w ≤ 2)
    (hEffect : LifeEffect w sup sup' more)
    (hNone : .halted ∉ more) :
    w ∉ sup'.permanentlySkipped ∧ sup'.runtimeFails w ≤ 2 ∧
      soFar w sup ++ more = soFar w sup' := by
  unfold soFar
  cases hEffect with
  | nothing hActive hSkipped hFails =>
    rw [hSkipped, hFails, List.append_nil]
    refine ⟨hAlive, hFew, ?_⟩
    simp only [hActive]
  | starts hIdle hActive hSkipped hFails =>
    rw [hFails, if_neg hIdle, if_pos hActive, List.append_nil]
    exact ⟨hSkipped, hFew, rfl⟩
  | backsOff hActive hIdle hSkipped hMore hFails =>
    rw [hSkipped, hFails, if_pos hActive, if_neg hIdle, cycles_succ,
      List.append_nil, List.append_assoc]
    exact ⟨hAlive, Nat.le_of_lt_succ hMore, rfl⟩
  | halts => exact absurd List.mem_cons_self hNone

/- However it is halted, it had too few restarts. -/
theorem not_restartBudget_soFar
    (hFew : sup.runtimeFails w ≤ 2) :
    ¬RestartBudget (soFar w sup ++ [.halted]) := by
  unfold soFar
  split
  · exact (not_restartBudget_halted hFew).2
  · rw [List.append_nil]
    exact (not_restartBudget_halted hFew).1

/- What one event preserves. -/
theorem Shaped.step
    {more : List Life}
    (hShaped : Shaped w sup life)
    (hEffect : LifeEffect w sup sup' more) :
    Shaped w sup' (life ++ more) := by
  constructor
  · intro hNone
    rw [List.mem_append, not_or] at hNone
    rcases hShaped.alive hNone.1 with ⟨hAlive, hFew, rfl⟩
    rcases soFar_step hAlive hFew hEffect hNone.2 with
      ⟨hAlive', hFew', hLife⟩
    exact ⟨hAlive', hFew', hLife⟩
  · intro hHalted
    by_cases hBefore : .halted ∈ life
    · exact fun hBudget => hShaped.halted hBefore hBudget.earlier
    · rcases hShaped.alive hBefore with ⟨_, hFew, rfl⟩
      have hNow : .halted ∈ more :=
        (List.mem_append.mp hHalted).resolve_left hBefore
      cases hEffect with
      | halts => exact not_restartBudget_soFar hFew
      | _ => simp at hNow

------------------------------------------------------------
-- What an Event Does to a Life
------------------------------------------------------------

/- An entry of another wallet is nothing to this one. -/
theorem effect_spawnEntry_other
    {entry : WalletFullEntry}
    (file : KeypairFile)
    (hOther : entry.walletId ≠ w) :
    LifeEffect w sup (sup.spawnEntry entry file) [] := by
  unfold Supervisor.spawnEntry
  dsimp only
  split
  · exact .nothing (by simp [List.mem_insert_iff, hOther.symm]) .rfl rfl
  · split
    · exact .nothing .rfl (by simp [List.mem_insert_iff, hOther.symm]) rfl
    · exact .nothing .rfl .rfl rfl

/- The wallet's entry, where it has no worker and is not skipped. -/
theorem effect_spawnEntry
    {entry : WalletFullEntry}
    (file : KeypairFile)
    (hSame : entry.walletId = w)
    (hIdle : w ∉ sup.activeIds)
    (hAlive : w ∉ sup.permanentlySkipped) :
    LifeEffect w sup (sup.spawnEntry entry file)
      (spawnLife sup entry file) := by
  subst hSame
  unfold Supervisor.spawnEntry spawnLife
  cases WorkerFactory.build entry file with
  | built worker =>
    exact .starts hIdle List.mem_insert_self hAlive rfl
  | failed reason =>
    dsimp only
    split
    · exact .halts
    · exact .nothing .rfl .rfl rfl

/- Only what concerns the wallet counts. -/
theorem LifeEffect.of_eq
    {mid : Supervisor}
    {life : List Life}
    (hEffect : LifeEffect w mid sup' life)
    (hActive : mid.activeIds = sup.activeIds)
    (hSkipped : mid.permanentlySkipped = sup.permanentlySkipped)
    (hFails : mid.runtimeFails = sup.runtimeFails) :
    LifeEffect w sup sup' life := by
  rcases sup with
    ⟨js, active, backoff, fails, builds, skipped, awaiting⟩
  subst hActive hSkipped hFails
  cases hEffect with
  | nothing hA hS hF => exact .nothing hA hS hF
  | starts hI hA hS hF => exact .starts hI hA hS hF
  | backsOff hA hI hS hFew hF => exact .backsOff hA hI hS hFew hF
  | halts => exact .halts

theorem effect_onRestart
    (entry : WalletFullEntry)
    (file : KeypairFile) :
    LifeEffect w sup (sup.onRestart entry file)
      (if entry.walletId = w ∧ w ∉ sup.activeIds ∧
          w ∉ sup.permanentlySkipped then
        spawnLife sup entry file
      else
        []) := by
  unfold Supervisor.onRestart
  dsimp only
  split
  · next hRefused =>
    rw [if_neg]
    · exact .nothing .rfl .rfl rfl
    · rintro ⟨rfl, hIdle, hAlive⟩
      exact hRefused.elim hIdle hAlive
  · next hFree =>
    push Not at hFree
    by_cases hSame : entry.walletId = w
    · subst hSame
      rw [if_pos ⟨rfl, hFree⟩]
      have hIdle :
          entry.walletId ∉
            ({ sup with
              inBackoff :=
                sup.inBackoff.filter fun w =>
                  w ≠ entry.walletId } : Supervisor).activeIds :=
        hFree.1
      exact (effect_spawnEntry file rfl hIdle hFree.2).of_eq rfl rfl rfl
    · rw [if_neg fun hBoth => hSame hBoth.1]
      exact (effect_spawnEntry_other file hSame).of_eq rfl rfl rfl

theorem effect_onSpawn
    (entry : WalletFullEntry)
    (file : KeypairFile) :
    LifeEffect w sup (sup.onSpawn entry file)
      (if entry.walletId = w ∧ ¬sup.Refuses w then
        spawnLife sup entry file
      else
        []) := by
  unfold Supervisor.onSpawn
  split
  · next hRefused =>
    rw [if_neg]
    · exact .nothing .rfl .rfl rfl
    · rintro ⟨rfl, hFree⟩
      exact hFree hRefused
  · next hFree =>
    by_cases hSame : entry.walletId = w
    · subst hSame
      rw [if_pos ⟨rfl, hFree⟩]
      exact effect_spawnEntry file rfl (fun hActive => hFree (.inl hActive))
        fun hSkip => hFree (.inr (.inr hSkip))
    · rw [if_neg fun hBoth => hSame hBoth.1]
      exact effect_spawnEntry_other file hSame

/- The exit of a worker of some wallet that is active. -/
theorem effect_onExit
    {v : WalletId}
    (hActive : v ∈ sup.activeIds) :
    LifeEffect w sup (sup.onExit (.ok v)).1
      (if v = w then
        if maxRestartAttempts ≤ sup.runtimeFails w + 1 then
          [.halted]
        else
          [.backoff (backoffSecs (sup.runtimeFails w + 1))]
      else
        []) := by
  unfold Supervisor.onExit
  dsimp only
  by_cases hSame : v = w
  · subst hSame
    rw [if_pos rfl]
    split
    · exact .halts
    · next hFew =>
      refine .backsOff hActive ?_ .rfl (not_le.mp hFew) ?_
      · simp
      · simp
  · have hOther : w ≠ v := fun h => hSame h.symm
    rw [if_neg hSame]
    split
    · refine .nothing ?_ ?_ ?_
      · simp [hOther]
      · simp [List.mem_insert_iff, hOther]
      · simp [hOther]
    · refine .nothing ?_ .rfl ?_
      · simp [hOther]
      · simp [hOther]

end Shape

section Runs

variable {w : WalletId} {o o' : Orchestrator} {e : OrchestratorEvent}

/- A statement of a worker's own halt, where it has an effect. -/
theorem effect_ownHalt
    {sup sup' : Supervisor}
    (task : WorkerTask)
    (ok : Bool)
    (hActive : sup'.activeIds = sup.activeIds)
    (hSkipped : sup'.permanentlySkipped = sup.permanentlySkipped)
    (hFails : sup'.runtimeFails = sup.runtimeFails) :
    LifeEffect w sup sup'
      (if task.worker.walletId = w then
        if ok then [.halted] else []
      else
        []) := by
  have hNothing : LifeEffect w sup sup' [] := by
    apply LifeEffect.nothing
    · rw [hActive]
    · rw [hSkipped]
    · rw [hFails]
  split
  · split
    · exact .halts
    · exact hNothing
  · exact hNothing

/- Say once what an event does to the life of the wallet. -/
theorem lifeEffect_of_does
    (hO : Consistent o)
    (hDoes : Does o e o') :
    LifeEffect w o.sup o'.sup (lifeOf w o e) := by
  cases hDoes with
  | restarts hSelect hMessage =>
    unfold lifeOf
    rw [hMessage]
    exact effect_onRestart _ _
  | spawns hSelect hMessage =>
    unfold lifeOf
    rw [hMessage]
    exact effect_onSpawn _ _
  | @joins i task how hSelect hAt hEnded =>
    have hMem := List.mem_of_getElem? hAt
    have hActive :
        task.worker.walletId ∈
          ({ o.sup with
            js := o.sup.js.eraseIdx i } : Supervisor).activeIds :=
      (hO.sup.active _).mpr (List.mem_map_of_mem hMem)
    unfold lifeOf joined
    rw [hO.sup.result_eq hMem how]
    simp only [hAt]
    exact (effect_onExit hActive).of_eq rfl rfl rfl
  | haltsRegistry hHalting => exact .nothing .rfl .rfl rfl
  | haltsConfig hHalting => exact .nothing .rfl .rfl rfl
  | ends hAt hRuns => exact .nothing .rfl .rfl rfl
  | fails hAt hRuns => exact .nothing .rfl .rfl rfl
  | haltsItself hAt hRuns hHalting =>
    unfold lifeOf
    simp only [hAt]
    exact effect_ownHalt _ _ rfl rfl rfl
  | hasHalted hAt hRuns hHalting =>
    unfold lifeOf
    simp only [hAt]
    exact effect_ownHalt _ _ rfl rfl rfl
  | forgets hTimer hWaits hNone => exact .nothing .rfl .rfl rfl
  | finds hTimer hWaits hSome => exact .nothing .rfl .rfl rfl
  | sends hTimer hFound hRoom => exact .nothing .rfl .rfl rfl
  | loads hDone => exact .nothing .rfl .rfl rfl
  | feeds hNext hRoom => exact .nothing .rfl .rfl rfl
  | changes => exact .nothing .rfl .rfl rfl

/- The collections agree, and the life has its shape. -/
def Told (w : WalletId) (p : Orchestrator × List Life) : Prop :=
  Consistent p.1 ∧ Shaped w p.1.sup p.2

theorem told_new (registry : List WalletFullEntry) :
    Told w (.new registry, []) := by
  refine ⟨consistent_new registry, fun _ => ?_, nofun⟩
  exact ⟨List.not_mem_nil, Nat.zero_le 2, rfl⟩

theorem Told.step
    {p q : Orchestrator × List Life}
    (hTold : Told w p)
    (hStep : (watched w).step p e = some q) :
    Told w q := by
  rcases Transition.watch_step.mp hStep with ⟨hNext, hLife⟩
  have hEffect : LifeEffect w p.1.sup q.1.sup (lifeOf w p.1 e) :=
    lifeEffect_of_does hTold.1 (does_of_step hNext)
  refine ⟨hTold.1.step hNext, ?_⟩
  rw [← hLife]
  exact hTold.2.step hEffect

/- A life of that shape is within its budget until it is halted. -/
theorem Told.withinBudget_iff
    {p : Orchestrator × List Life}
    (hTold : Told w p) :
    RestartBudget p.2 ↔ .halted ∉ p.2 := by
  constructor
  · exact fun hBudget hHalted => hTold.2.halted hHalted hBudget
  · intro hNone
    rcases hTold.2.alive hNone with ⟨_, hFew, hLife⟩
    rw [hLife, soFar]
    split
    · exact (restartBudget_cycles hFew).2
    · rw [List.append_nil]
      exact (restartBudget_cycles hFew).1

------------------------------------------------------------
-- The Budget
------------------------------------------------------------

/-
  The loop takes no third exit of a worker of the wallet, and is
  not asked a third time in a row to build one that it cannot;
  and no statement with which a worker of the wallet halts it
  itself, having no client, has an effect.
-/
def Spares
    (w : WalletId)
    (o : Orchestrator)
    (e : OrchestratorEvent) : Prop :=
  o.step e ≠ none →
    match e with
    | .join i =>
        ∀ task ∈ o.sup.js[i]?,
          task.worker.walletId = w → o.sup.runtimeFails w < 2
    | .restart file =>
        ∀ entry ∈ o.restartRx.head?,
          entry.walletId = w ∧ w ∉ o.sup.activeIds ∧
              w ∉ o.sup.permanentlySkipped →
            (∃ reason,
              WorkerFactory.build entry file = .failed reason) →
                o.sup.buildFails w < 2
    | .spawn file =>
        ∀ entry ∈ o.spawnRx.head?,
          entry.walletId = w ∧ ¬o.sup.Refuses w →
            (∃ reason,
              WorkerFactory.build entry file = .failed reason) →
                o.sup.buildFails w < 2
    | .ownHalt i ok =>
        ∀ task ∈ o.sup.js[i]?,
          task.worker.walletId = w → ok = false
    | _ => True

theorem halted_mem_spawnLife_iff
    (sup : Supervisor)
    (entry : WalletFullEntry)
    (file : KeypairFile) :
    .halted ∈ spawnLife sup entry file ↔
      ¬((∃ reason, WorkerFactory.build entry file = .failed reason) →
        sup.buildFails entry.walletId < 2) := by
  unfold spawnLife
  cases WorkerFactory.build entry file with
  | built worker => simp
  | failed reason =>
    dsimp only
    split
    · next hMany =>
      refine iff_of_true (List.mem_singleton_self _) fun hFew => ?_
      have hLt := hFew ⟨reason, rfl⟩
      unfold maxRestartAttempts at hMany
      omega
    · next hFew =>
      refine iff_of_false List.not_mem_nil (not_not.mpr fun _ => ?_)
      unfold maxRestartAttempts at hFew
      omega

/- The part of a life that is there under a condition. -/
theorem halted_notMem_ite_iff
    {c : Prop} [Decidable c]
    {life : List Life}
    {ok : Prop}
    (hHalted : c → (.halted ∈ life ↔ ¬ok)) :
    (.halted ∉ if c then life else []) ↔ (c → ok) := by
  split
  · next hC => rw [hHalted hC, not_not, forall_prop_of_true hC]
  · next hNot =>
    exact iff_of_true List.not_mem_nil fun hC => absurd hC hNot

/- What the loop does about a message, if it is one about the wallet. -/
theorem halted_notMem_spawn_iff
    {c : Prop} [Decidable c]
    {sup : Supervisor}
    {entry : WalletFullEntry}
    {file : KeypairFile}
    (hAbout : c → entry.walletId = w) :
    (.halted ∉ if c then spawnLife sup entry file else []) ↔
      (c →
        (∃ reason,
          WorkerFactory.build entry file = .failed reason) →
            sup.buildFails w < 2) := by
  rw [halted_notMem_ite_iff fun hC =>
    halted_mem_spawnLife_iff sup entry file]
  exact forall_congr' fun hC => by rw [hAbout hC]

/- A worker's own halt, if it is one of the wallet. -/
theorem halted_notMem_ownHalt_iff
    (task : WorkerTask)
    (ok : Bool) :
    (.halted ∉
        if task.worker.walletId = w then
          if ok then [.halted] else ([] : List Life)
        else
          []) ↔
      (task.worker.walletId = w → ok = false) := by
  apply halted_notMem_ite_iff
  intro _
  cases ok with
  | false => exact iff_of_false List.not_mem_nil (not_not.mpr rfl)
  | true => exact iff_of_true List.mem_cons_self Bool.true_eq_false.mp

/- An event that happens spares the wallet if it is no halt of it. -/
theorem spares_iff
    (hStep : o.step e = some o') :
    Spares w o e ↔ .halted ∉ lifeOf w o e := by
  have hHappens : o.step e ≠ none := by
    rw [hStep]
    nofun
  unfold Spares
  rw [forall_prop_of_true hHappens]
  cases does_of_step hStep with
  | restarts hSelect hMessage =>
    unfold lifeOf
    rw [hMessage]
    simp only [List.head?_cons, Option.mem_some_iff, forall_eq']
    exact (halted_notMem_spawn_iff And.left).symm
  | spawns hSelect hMessage =>
    unfold lifeOf
    rw [hMessage]
    simp only [List.head?_cons, Option.mem_some_iff, forall_eq']
    exact (halted_notMem_spawn_iff And.left).symm
  | joins hSelect hAt hEnded =>
    unfold lifeOf
    simp only [hAt, Option.mem_some_iff, forall_eq']
    refine (halted_notMem_ite_iff fun hHere => ?_).symm
    unfold maxRestartAttempts
    split
    · next hMany =>
      exact iff_of_true (List.mem_singleton_self _) (by omega)
    · next hFew =>
      exact iff_of_false (by simp) (by omega)
  | haltsRegistry hHalting => exact iff_of_true trivial List.not_mem_nil
  | haltsConfig hHalting => exact iff_of_true trivial List.not_mem_nil
  | ends hAt hRuns => exact iff_of_true trivial List.not_mem_nil
  | fails hAt hRuns => exact iff_of_true trivial List.not_mem_nil
  | haltsItself hAt hRuns hHalting =>
    unfold lifeOf
    simp only [hAt, Option.mem_some_iff, forall_eq']
    exact (halted_notMem_ownHalt_iff _ _).symm
  | hasHalted hAt hRuns hHalting =>
    unfold lifeOf
    simp only [hAt, Option.mem_some_iff, forall_eq']
    exact (halted_notMem_ownHalt_iff _ _).symm
  | forgets hTimer hWaits hNone =>
    exact iff_of_true trivial List.not_mem_nil
  | finds hTimer hWaits hSome =>
    exact iff_of_true trivial List.not_mem_nil
  | sends hTimer hFound hRoom =>
    exact iff_of_true trivial List.not_mem_nil
  | loads hDone => exact iff_of_true trivial List.not_mem_nil
  | feeds hNext hRoom => exact iff_of_true trivial List.not_mem_nil
  | changes => exact iff_of_true trivial List.not_mem_nil

/-
  The restart budget is kept throughout a run exactly if every
  event spares the wallet, that is, if it is never halted.
-/
theorem restartBudget_iff
    (w : WalletId)
    (registry : List WalletFullEntry)
    (es : List OrchestratorEvent) :
    (watched w).Throughout (fun p => RestartBudget p.2)
        (.new registry, []) es ↔
      (watched w).Meets (fun p e => Spares w p.1 e)
        (.new registry, []) es := by
  apply Transition.throughout_iff_meets_of_invariant
    (I := fun p => Told w p)
  · exact told_new registry
  · exact (restartBudget_cycles (Nat.zero_le 2)).1
  · exact fun p e q hTold hStep => hTold.step hStep
  · intro p e hNone hHappens
    exact absurd (Transition.watch_step_none.mp hNone) hHappens
  · intro p e q hTold hBudget hStep
    have hNone := hTold.withinBudget_iff.mp hBudget
    rcases Transition.watch_step.mp hStep with ⟨hNext, hLife⟩
    rw [(hTold.step hStep).withinBudget_iff, spares_iff hNext, ← hLife,
      List.mem_append, not_or]
    exact and_iff_right hNone

end Runs

end Orchestrator

/- The worker panics, and the loop takes its exit. -/
def samplePanic : List OrchestratorEvent :=
  [.workerEnds 0 .panicked, .join 0]

/- The back-off runs out, and the worker is built again. -/
def sampleReturn : List OrchestratorEvent :=
  [.timerQuery 0 true, .timerSend 0, .restart sampleKeypair]

/- A worker that panics, is restarted twice and panics again. -/
def sampleCrashes : List OrchestratorEvent :=
  sampleStart ++ samplePanic ++ sampleReturn ++ samplePanic ++
    sampleReturn ++ samplePanic

theorem not_restartBudget_sampleCrashes :
    ¬∀ (w : WalletId) (registry : List WalletFullEntry)
        (es : List OrchestratorEvent),
      (Orchestrator.watched w).Throughout
        (fun p => RestartBudget p.2) (.new registry, []) es := by
  intro hKept
  rcases (Orchestrator.watched "wallet_001").exists_exec_of_any
      (.new [sampleRow], []) sampleCrashes
      (fun p =>
        p.2 = [.started, .backoff 2, .started, .backoff 4, .started,
          .halted])
      (by decide +kernel) with
    ⟨p, hExec, hLife⟩
  have hBudget : RestartBudget p.2 :=
    hKept "wallet_001" [sampleRow] sampleCrashes sampleCrashes [] p
      (by simp) hExec
  rw [of_decide_eq_true hLife] at hBudget
  exact absurd hBudget (by decide)

end Pumpy
