import Pumpy.Supervisor.Orchestrator
import Pumpy.Interleaving.Machine
import Mathlib.Data.List.Nodup
import Mathlib.Data.List.Perm.Basic

/-
  The workers the supervisor runs: one for a wallet, for none it
  skips, and in back-off only by the message of the back-off.

  Key definitions include:
    * `Orchestrator.running`
    * `Orchestrator.unjoined`
    * `Orchestrator.restarts`
    * `PendingSince`
    * `WorkerSpec`

  The main results are `workerSpec_unjoined` and
  `not_workerSpec_running`.
-/

namespace Pumpy

open Interleaving

------------------------------------------------------------
-- What is promised
------------------------------------------------------------

namespace Orchestrator

/- The wallets of the workers that run. -/
def running (o : Orchestrator) : List WalletId :=
  (o.sup.js.filter fun task => task.ended.isNone).map fun task =>
    task.worker.walletId

/- The wallets of the workers the loop has not seen the exit of. -/
def unjoined (o : Orchestrator) : List WalletId :=
  o.sup.js.map fun task => task.worker.walletId

/- The wallets that a timer or a queued message is to restart. -/
def restarts (o : Orchestrator) : List WalletId :=
  o.timers.map Timer.wid ++ o.restartRx.map WalletFullEntry.walletId

end Orchestrator

/-
  The pending back-off of the wallet began in the run when the
  loop took the exit of its worker.  Nothing was to restart the
  wallet then, and no worker of it has been there since.
-/
def PendingSince
    (registry : List WalletFullEntry)
    (es : List OrchestratorEvent)
    (w : WalletId) : Prop :=
  ∃ pre i post before after,
    es = pre ++ .join i :: post ∧
      Orchestrator.system.exec (.new registry) pre = some before ∧
        Orchestrator.system.step before (.join i) = some after ∧
          w ∈ before.unjoined ∧ w ∉ before.restarts ∧
            w ∈ after.restarts ∧
              Orchestrator.system.Throughout
                (fun o => w ∉ o.unjoined) after post

/-
  What the supervisor promises after a run of the workers `ids`
  lists.
-/
structure WorkerSpec
    (ids : Orchestrator → List WalletId)
    (registry : List WalletFullEntry)
    (es : List OrchestratorEvent)
    (o : Orchestrator) : Prop where
  once : (ids o).Nodup
  active : ∀ w, w ∈ o.sup.activeIds ↔ w ∈ ids o
  starts :
    ∀ e o' w,
      Orchestrator.system.step o e = some o' →
        o'.unjoined = o.unjoined ++ [w] →
          w ∉ o.sup.permanentlySkipped ∧
            (w ∈ o.sup.inBackoff →
              (∃ file, e = .restart file) ∧
                (∃ entry rest,
                  o.restartRx = entry :: rest ∧ entry.walletId = w) ∧
                  PendingSince registry es w)

------------------------------------------------------------
-- The supervisor's collections
------------------------------------------------------------

/- Taking an element out leaves the others. -/
theorem perm_map_eraseIdx
    {α β : Type}
    {l : List α}
    {i : Nat}
    {a : α}
    (f : α → β)
    (hAt : l[i]? = some a) :
    (l.map f).Perm (f a :: (l.eraseIdx i).map f) := by
  rcases List.getElem?_eq_some_iff.mp hAt with ⟨hLt, hEq⟩
  have hPerm := (List.getElem_cons_eraseIdx_perm hLt).map f
  rw [List.map_cons, hEq] at hPerm
  exact hPerm.symm

namespace Supervisor

/- The active wallets are those of the tasks, each of one task. -/
structure Consistent (sup : Supervisor) : Prop where
  named : ∀ task ∈ sup.js, task.worker.walletId = task.wid
  once : (sup.js.map fun task => task.worker.walletId).Nodup
  active :
    ∀ w,
      w ∈ sup.activeIds ↔
        w ∈ sup.js.map fun task => task.worker.walletId

section Consistent

variable {sup : Supervisor} {entry : WalletFullEntry}
variable {file : KeypairFile} {w : WalletId}

/- A worker that is built is the entry's. -/
theorem walletId_of_built
    {worker : WalletWorker}
    (hBuilt : WorkerFactory.build entry file = .built worker) :
    worker.walletId = entry.walletId := by
  unfold WorkerFactory.build at hBuilt
  split at hBuilt
  · cases hBuilt
  · split at hBuilt
    · cases hBuilt
    · split at hBuilt
      · cases hBuilt
      · cases hBuilt
      · split at hBuilt
        · cases hBuilt
        · cases hBuilt
          rfl

/- Either the entry's worker runs, or no task and no wallet is new. -/
theorem spawnEntry_cases
    (sup : Supervisor)
    (entry : WalletFullEntry)
    (file : KeypairFile) :
    (∃ worker,
        worker.walletId = entry.walletId ∧
          (sup.spawnEntry entry file).js =
            sup.js ++ [⟨worker, entry.walletId, .runs, none⟩] ∧
          (sup.spawnEntry entry file).activeIds =
            sup.activeIds.insert entry.walletId) ∨
      ((sup.spawnEntry entry file).js = sup.js ∧
        (sup.spawnEntry entry file).activeIds = sup.activeIds) := by
  unfold spawnEntry
  cases hBuild : WorkerFactory.build entry file with
  | built worker =>
    exact .inl ⟨worker, walletId_of_built hBuild, rfl, rfl⟩
  | failed reason =>
    right
    dsimp only
    split
    · exact ⟨rfl, rfl⟩
    · exact ⟨rfl, rfl⟩

@[simp] theorem inBackoff_spawnEntry :
    (sup.spawnEntry entry file).inBackoff = sup.inBackoff := by
  unfold spawnEntry
  dsimp only
  split
  · rfl
  · split
    · rfl
    · rfl

theorem mem_activeIds_spawnEntry
    (hActive : w ∈ (sup.spawnEntry entry file).activeIds) :
    w = entry.walletId ∨ w ∈ sup.activeIds := by
  rcases spawnEntry_cases sup entry file with
    ⟨worker, _, _, hIds⟩ | ⟨_, hIds⟩
  · rw [hIds] at hActive
    exact List.mem_insert_iff.mp hActive
  · rw [hIds] at hActive
    exact .inr hActive

theorem Consistent.spawnEntry
    (hSup : Consistent sup)
    (hNew : entry.walletId ∉ sup.activeIds) :
    Consistent (sup.spawnEntry entry file) := by
  rcases spawnEntry_cases sup entry file with
    ⟨worker, hWorker, hJs, hIds⟩ | ⟨hJs, hIds⟩
  · constructor
    · intro task hTask
      rw [hJs] at hTask
      rcases List.mem_append.mp hTask with hOld | hLast
      · exact hSup.named task hOld
      · rw [List.mem_singleton.mp hLast]
        exact hWorker
    · rw [hJs, List.map_append, List.map_singleton, hWorker]
      rw [← List.concat_eq_append]
      rw [hSup.active] at hNew
      exact hSup.once.concat hNew
    · intro w
      rw [hIds, hJs, List.map_append, List.map_singleton, hWorker,
        List.mem_append, List.mem_singleton]
      refine (List.mem_insert_iff).trans ?_
      rw [hSup.active, or_comm]
  · constructor
    · rw [hJs]
      exact hSup.named
    · rw [hJs]
      exact hSup.once
    · rw [hJs, hIds]
      exact hSup.active

theorem Consistent.onRestart
    (hSup : Consistent sup) :
    Consistent (sup.onRestart entry file) := by
  unfold Supervisor.onRestart
  dsimp only
  split
  · exact ⟨hSup.named, hSup.once, hSup.active⟩
  · rename_i hFree
    push Not at hFree
    have hCleared :
        Consistent
          { sup with
            inBackoff :=
              sup.inBackoff.filter fun w => w ≠ entry.walletId } :=
      ⟨hSup.named, hSup.once, hSup.active⟩
    exact hCleared.spawnEntry hFree.1

theorem Consistent.onSpawn
    (hSup : Consistent sup) :
    Consistent (sup.onSpawn entry file) := by
  unfold Supervisor.onSpawn
  split
  · exact hSup
  · rename_i hRefused
    exact hSup.spawnEntry fun hActive => hRefused (.inl hActive)

/- Whatever its end, a task gives the wallet of its worker. -/
theorem Consistent.result_eq
    {task : WorkerTask}
    (hSup : Consistent sup)
    (hTask : task ∈ sup.js)
    (how : WorkerEnd) :
    task.result how = .ok task.worker.walletId := by
  cases how with
  | returned => rfl
  | panicked => rw [hSup.named task hTask, WorkerTask.result]

/- The loop takes an exit: the wallet's only task and its mark go. -/
theorem Consistent.onExit
    {i : Nat}
    {task : WorkerTask}
    (hSup : Consistent sup)
    (hAt : sup.js[i]? = some task) :
    Consistent
      ({ sup with js := sup.js.eraseIdx i }.onExit
        (.ok task.worker.walletId)).1 := by
  have hPerm :=
    perm_map_eraseIdx (fun task => task.worker.walletId) hAt
  have hNodup := hPerm.nodup_iff.mp hSup.once
  rcases List.nodup_cons.mp hNodup with ⟨hGone, hOnce⟩
  have hActive :
      ∀ w,
        w ∈ (sup.activeIds.filter fun w =>
            w ≠ task.worker.walletId) ↔
          w ∈ (sup.js.eraseIdx i).map fun task =>
            task.worker.walletId := by
    intro w
    rw [List.mem_filter, hSup.active, hPerm.mem_iff, List.mem_cons]
    constructor
    · rintro ⟨hSame | hOther, hNe⟩
      · exact absurd hSame (by simpa using hNe)
      · exact hOther
    · intro hOther
      refine ⟨.inr hOther, ?_⟩
      rw [decide_eq_true_iff]
      rintro rfl
      exact hGone hOther
  have hNamed :
      ∀ task ∈ sup.js.eraseIdx i, task.worker.walletId = task.wid :=
    fun task hMem => hSup.named task (List.mem_of_mem_eraseIdx hMem)
  unfold Supervisor.onExit
  dsimp only
  split
  · exact ⟨hNamed, hOnce, hActive⟩
  · exact ⟨hNamed, hOnce, hActive⟩

/- A task goes on, with the worker it has. -/
theorem Consistent.withTask
    {i : Nat}
    {task task' : WorkerTask}
    (hSup : Consistent sup)
    (hAt : sup.js[i]? = some task)
    (hWorker : task'.worker = task.worker)
    (hWid : task'.wid = task.wid) :
    Consistent { sup with js := sup.js.set i task' } := by
  have hSame :
      (sup.js.set i task').map (fun task => task.worker.walletId) =
        sup.js.map fun task => task.worker.walletId := by
    rw [List.map_set, hWorker]
    apply Machine.set_eq_self_of_getElem?
    rw [List.getElem?_map, hAt]
    rfl
  constructor
  · intro t hMem
    rcases List.mem_or_eq_of_mem_set hMem with hOld | rfl
    · exact hSup.named t hOld
    · rw [hWorker, hWid]
      exact hSup.named task (List.mem_of_getElem? hAt)
  · dsimp only
    rw [hSame]
    exact hSup.once
  · dsimp only
    rw [hSame]
    exact hSup.active

end Consistent

end Supervisor

------------------------------------------------------------
-- Timers and messages
------------------------------------------------------------

namespace Orchestrator

/-
  What an event does to the wallets that are to be restarted, to
  the back-off set and to the active wallets.
-/
inductive RestartEffect (o : Orchestrator) :
    OrchestratorEvent → Orchestrator → Prop
  | kept
      {e : OrchestratorEvent}
      {o' : Orchestrator}
      (hRestarts : o.restarts.Perm o'.restarts)
      (hBackoff : o'.sup.inBackoff = o.sup.inBackoff)
      (hActive :
        ∀ v ∈ o'.sup.activeIds,
          v ∈ o.sup.activeIds ∨ v ∉ o.sup.inBackoff) :
      RestartEffect o e o'
  | answered
      {file : KeypairFile}
      {o' : Orchestrator}
      {entry : WalletFullEntry}
      {rest : List WalletFullEntry}
      (hMessage : o.restartRx = entry :: rest)
      (hRestarts :
        o.restarts.Perm (entry.walletId :: o'.restarts))
      (hBackoff :
        ∀ v,
          v ∈ o'.sup.inBackoff ↔
            v ∈ o.sup.inBackoff ∧ v ≠ entry.walletId)
      (hActive :
        ∀ v ∈ o'.sup.activeIds,
          v ∈ o.sup.activeIds ∨ v = entry.walletId) :
      RestartEffect o (.restart file) o'
  | begun
      {i : Nat}
      {w : WalletId}
      {o' : Orchestrator}
      (hWas : w ∈ o.unjoined)
      (hRestarts : o'.restarts.Perm (w :: o.restarts))
      (hBackoff :
        ∀ v,
          v ∈ o'.sup.inBackoff ↔ v = w ∨ v ∈ o.sup.inBackoff)
      (hActive :
        ∀ v ∈ o'.sup.activeIds, v ∈ o.sup.activeIds ∧ v ≠ w) :
      RestartEffect o (.join i) o'
  | lost
      {i : Nat}
      {ok : Bool}
      {timer : Timer}
      {o' : Orchestrator}
      (hTimer : o.timers[i]? = some timer)
      (hNone : o.lookUp timer.wid ok = none)
      (hRestarts : o.restarts.Perm (timer.wid :: o'.restarts))
      (hBackoff : o'.sup.inBackoff = o.sup.inBackoff)
      (hActive : o'.sup.activeIds = o.sup.activeIds) :
      RestartEffect o (.timerQuery i ok) o'

/- The collections and the timers agree with each other. -/
structure Consistent (o : Orchestrator) : Prop where
  sup : o.sup.Consistent
  found :
    ∀ timer ∈ o.timers, ∀ entry,
      timer.found = some entry → entry.walletId = timer.wid
  restartsOnce : o.restarts.Nodup
  backedOff :
    ∀ w ∈ o.restarts,
      w ∈ o.sup.inBackoff ∧ w ∉ o.sup.activeIds

section Consistent

variable {o o' : Orchestrator} {e : OrchestratorEvent}
variable {w : WalletId}

theorem mem_unjoined_iff
    (hO : Consistent o) :
    w ∈ o.unjoined ↔ w ∈ o.sup.activeIds :=
  (hO.sup.active w).symm

/- What a timer has found is an entry of its wallet. -/
theorem walletId_of_lookUp
    {ok : Bool}
    {entry : WalletFullEntry}
    (hFound : o.lookUp w ok = some entry) :
    entry.walletId = w := by
  have hIs := List.find?_some hFound
  exact of_decide_eq_true hIs

/- Say once what an event does to the back-offs. -/
theorem restartEffect_of_does
    (hO : Consistent o)
    (hDoes : Does o e o') :
    RestartEffect o e o' := by
  cases hDoes with
  | restarts _ hMessage =>
    refine .answered hMessage ?_ ?_ ?_
    · unfold restarts
      rw [hMessage, List.map_cons]
      exact List.perm_middle
    · intro v
      unfold Supervisor.onRestart
      dsimp only
      split <;> simp
    · intro v hActive
      unfold Supervisor.onRestart at hActive
      dsimp only at hActive
      split at hActive
      · exact .inl hActive
      · exact (Supervisor.mem_activeIds_spawnEntry hActive).symm
  | spawns _ _ =>
    refine .kept (.refl _) ?_ ?_
    · unfold Supervisor.onSpawn
      split <;> simp
    · intro v hActive
      unfold Supervisor.onSpawn at hActive
      split at hActive
      · exact .inl hActive
      · rename_i hRefused
        rcases Supervisor.mem_activeIds_spawnEntry hActive with
          rfl | hOld
        · exact .inr fun hBackoff => hRefused (.inr (.inl hBackoff))
        · exact .inl hOld
  | @joins i task how _ hAt _ =>
    have hMem := List.mem_of_getElem? hAt
    unfold joined
    rw [hO.sup.result_eq hMem how]
    unfold Supervisor.onExit
    dsimp only
    split
    · refine .kept ?_ rfl ?_
      · simp [restarts]
      · intro v hActive
        exact .inl (List.mem_filter.mp hActive).1
    · refine .begun (w := task.worker.walletId)
        (List.mem_map_of_mem hMem) ?_ ?_ ?_
      · simp only [restarts, Option.toList_some, List.map_cons,
          List.map_nil, List.map_append, List.append_assoc,
          List.singleton_append]
        exact List.perm_middle
      · intro v
        exact List.mem_insert_iff
      · intro v hActive
        simpa using List.mem_filter.mp hActive
  | haltsRegistry _ => exact .kept (.refl _) rfl fun _ => .inl
  | haltsConfig _ => exact .kept (.refl _) rfl fun _ => .inl
  | ends _ _ => exact .kept (.refl _) rfl fun _ => .inl
  | fails _ _ => exact .kept (.refl _) rfl fun _ => .inl
  | haltsItself _ _ _ => exact .kept (.refl _) rfl fun _ => .inl
  | hasHalted _ _ _ => exact .kept (.refl _) rfl fun _ => .inl
  | forgets hTimer _ hNone =>
    refine .lost hTimer hNone ?_ rfl rfl
    exact (perm_map_eraseIdx Timer.wid hTimer).append_right _
  | @finds i ok timer entry hTimer _ _ =>
    refine .kept ?_ rfl fun _ => .inl
    have hSame :
        (o.timers.map Timer.wid).set i timer.wid =
          o.timers.map Timer.wid := by
      apply Machine.set_eq_self_of_getElem?
      simp [hTimer]
    unfold restarts
    rw [List.map_set, hSame]
  | sends hTimer hFound _ =>
    refine .kept ?_ rfl fun _ => .inl
    have hEntry :=
      hO.found _ (List.mem_of_getElem? hTimer) _ hFound
    have hPerm := perm_map_eraseIdx Timer.wid hTimer
    unfold restarts
    rw [List.map_append, List.map_singleton, hEntry,
      ← List.append_assoc]
    refine (hPerm.append_right _).trans ?_
    exact (List.perm_append_singleton _ _).symm
  | loads _ => exact .kept (.refl _) rfl fun _ => .inl
  | feeds _ _ => exact .kept (.refl _) rfl fun _ => .inl
  | changes => exact .kept (.refl _) rfl fun _ => .inl

/- What is to be restarted is in back-off, and no worker runs for it. -/
theorem RestartEffect.backedOff
    (hO : Consistent o)
    (hEffect : RestartEffect o e o') :
    o'.restarts.Nodup ∧
      ∀ w ∈ o'.restarts,
        w ∈ o'.sup.inBackoff ∧ w ∉ o'.sup.activeIds := by
  cases hEffect with
  | kept hRestarts hBackoff hActive =>
    refine ⟨hRestarts.nodup_iff.mp hO.restartsOnce, fun w hMem => ?_⟩
    rcases hO.backedOff w (hRestarts.mem_iff.mpr hMem) with
      ⟨hIn, hIdle⟩
    refine ⟨hBackoff ▸ hIn, fun hNow => ?_⟩
    rcases hActive w hNow with hWas | hOut
    · exact hIdle hWas
    · exact hOut hIn
  | @answered file o' entry rest hMessage hRestarts hBackoff hActive =>
    have hNodup := hRestarts.nodup_iff.mp hO.restartsOnce
    rcases List.nodup_cons.mp hNodup with ⟨hGone, hOnce⟩
    refine ⟨hOnce, fun w hMem => ?_⟩
    have hOther : w ≠ entry.walletId := by
      rintro rfl
      exact hGone hMem
    rcases hO.backedOff w
        (hRestarts.mem_iff.mpr (List.mem_cons_of_mem _ hMem)) with
      ⟨hIn, hIdle⟩
    refine ⟨(hBackoff w).mpr ⟨hIn, hOther⟩, fun hNow => ?_⟩
    rcases hActive w hNow with hWas | hSame
    · exact hIdle hWas
    · exact hOther hSame
  | @begun i v o' hWas hRestarts hBackoff hActive =>
    have hNew : v ∉ o.restarts := fun hMem =>
      (hO.backedOff v hMem).2 ((mem_unjoined_iff hO).mp hWas)
    refine ⟨hRestarts.nodup_iff.mpr
      (List.nodup_cons.mpr ⟨hNew, hO.restartsOnce⟩), fun w hMem => ?_⟩
    rcases List.mem_cons.mp (hRestarts.mem_iff.mp hMem) with
      rfl | hOld
    · exact ⟨(hBackoff _).mpr (.inl rfl),
        fun hNow => (hActive _ hNow).2 rfl⟩
    · rcases hO.backedOff w hOld with ⟨hIn, hIdle⟩
      exact ⟨(hBackoff w).mpr (.inr hIn),
        fun hNow => hIdle (hActive w hNow).1⟩
  | lost hTimer hNone hRestarts hBackoff hActive =>
    have hNodup := hRestarts.nodup_iff.mp hO.restartsOnce
    refine ⟨(List.nodup_cons.mp hNodup).2, fun w hMem => ?_⟩
    rw [hBackoff, hActive]
    exact hO.backedOff w
      (hRestarts.mem_iff.mpr (List.mem_cons_of_mem _ hMem))

/- The supervisor's collections go on to agree. -/
theorem Consistent.sup_step
    (hO : Consistent o)
    (hDoes : Does o e o') :
    o'.sup.Consistent := by
  cases hDoes with
  | restarts _ _ => exact hO.sup.onRestart
  | spawns _ _ => exact hO.sup.onSpawn
  | @joins i task how _ hAt _ =>
    unfold joined
    rw [hO.sup.result_eq (List.mem_of_getElem? hAt) how]
    exact hO.sup.onExit hAt
  | haltsRegistry _ => exact ⟨hO.sup.named, hO.sup.once, hO.sup.active⟩
  | haltsConfig _ => exact ⟨hO.sup.named, hO.sup.once, hO.sup.active⟩
  | ends hAt _ => exact hO.sup.withTask hAt rfl rfl
  | fails hAt _ => exact hO.sup.withTask hAt rfl rfl
  | haltsItself hAt _ _ => exact hO.sup.withTask hAt rfl rfl
  | hasHalted hAt _ _ => exact hO.sup.withTask hAt rfl rfl
  | forgets _ _ _ => exact hO.sup
  | finds _ _ _ => exact hO.sup
  | sends _ _ _ => exact hO.sup
  | loads _ => exact hO.sup
  | feeds _ _ => exact hO.sup
  | changes => exact hO.sup

/- What a timer has found stays an entry of its wallet. -/
theorem Consistent.found_step
    (hO : Consistent o)
    (hDoes : Does o e o') :
    ∀ timer ∈ o'.timers, ∀ entry,
      timer.found = some entry → entry.walletId = timer.wid := by
  cases hDoes with
  | restarts _ _ => exact hO.found
  | spawns _ _ => exact hO.found
  | joins _ _ _ =>
    intro timer hMem entry hFound
    rcases List.mem_append.mp hMem with hOld | hNew
    · exact hO.found timer hOld entry hFound
    · rcases List.mem_map.mp hNew with ⟨wid, _, rfl⟩
      cases hFound
  | haltsRegistry _ => exact hO.found
  | haltsConfig _ => exact hO.found
  | ends _ _ => exact hO.found
  | fails _ _ => exact hO.found
  | haltsItself _ _ _ => exact hO.found
  | hasHalted _ _ _ => exact hO.found
  | forgets _ _ _ =>
    exact fun timer hMem =>
      hO.found timer (List.mem_of_mem_eraseIdx hMem)
  | finds _ _ hSome =>
    intro timer hMem entry hFound
    rcases List.mem_or_eq_of_mem_set hMem with hOld | rfl
    · exact hO.found timer hOld entry hFound
    · cases hFound
      exact walletId_of_lookUp hSome
  | sends _ _ _ =>
    exact fun timer hMem =>
      hO.found timer (List.mem_of_mem_eraseIdx hMem)
  | loads _ => exact hO.found
  | feeds _ _ => exact hO.found
  | changes => exact hO.found

/- What one event preserves. -/
theorem Consistent.step
    (hO : Consistent o)
    (hStep : o.step e = some o') :
    Consistent o' := by
  have hDoes := does_of_step hStep
  have hRestarts := (restartEffect_of_does hO hDoes).backedOff hO
  exact {
    sup := hO.sup_step hDoes
    found := hO.found_step hDoes
    restartsOnce := hRestarts.1
    backedOff := hRestarts.2 }

theorem consistent_new
    (registry : List WalletFullEntry) :
    Consistent (.new registry) where
  sup := ⟨by simp [new, Supervisor.new], by simp [new, Supervisor.new],
    by simp [new, Supervisor.new]⟩
  found := by simp [new]
  restartsOnce := List.nodup_nil
  backedOff := by simp [restarts, new]

/- After every run the collections and the timers agree. -/
theorem consistent_of_exec
    {registry : List WalletFullEntry}
    {es : List OrchestratorEvent}
    (hExec : system.exec (.new registry) es = some o) :
    Consistent o :=
  system.exec_induction (P := fun _ o => Consistent o)
    (consistent_new registry)
    (fun _ _ _ _ _ hO hStep => hO.step hStep) hExec

------------------------------------------------------------
-- Starts
------------------------------------------------------------

/- Where no task is added, no worker is started. -/
theorem not_starts
    (hLe : o'.sup.js.length ≤ o.sup.js.length) :
    o'.unjoined ≠ o.unjoined ++ [w] := by
  intro hStarts
  have hLength := congrArg List.length hStarts
  simp only [unjoined, List.length_map, List.length_append,
    List.length_singleton] at hLength
  omega

/- The worker that is started is the entry's. -/
theorem walletId_of_spawned
    {sup : Supervisor}
    {entry : WalletFullEntry}
    {file : KeypairFile}
    (hStarts :
      (sup.spawnEntry entry file).js.map
          (fun task => task.worker.walletId) =
        sup.js.map (fun task => task.worker.walletId) ++ [w]) :
    entry.walletId = w := by
  rcases Supervisor.spawnEntry_cases sup entry file with
    ⟨worker, hWorker, hJs, _⟩ | ⟨hJs, _⟩
  · rw [hJs, List.map_append, List.map_singleton] at hStarts
    rw [← hWorker]
    exact List.singleton_inj.mp (List.append_cancel_left hStarts)
  · rw [hJs] at hStarts
    simp at hStarts

/- Taking an exit adds no task. -/
theorem js_onExit
    (sup : Supervisor)
    (result : Except JoinError WalletId) :
    (sup.onExit result).1.js = sup.js := by
  unfold Supervisor.onExit
  split
  · rfl
  · dsimp only
    split <;> rfl

/- A worker is started for a message, or for an entry not refused. -/
theorem startedBy
    (hDoes : Does o e o')
    (hStarts : o'.unjoined = o.unjoined ++ [w]) :
    w ∉ o.sup.permanentlySkipped ∧
      ((∃ file entry rest,
          e = .restart file ∧ o.restartRx = entry :: rest ∧
            entry.walletId = w) ∨
        w ∉ o.sup.inBackoff) := by
  cases hDoes with
  | @restarts file entry rest _ hMessage =>
    by_cases hSkip :
        entry.walletId ∈ o.sup.activeIds ∨
          entry.walletId ∈ o.sup.permanentlySkipped
    · refine absurd hStarts (not_starts ?_)
      simp [Supervisor.onRestart, hSkip]
    · simp only [unjoined, Supervisor.onRestart, if_neg hSkip]
        at hStarts
      have hSame := walletId_of_spawned hStarts
      push Not at hSkip
      exact ⟨hSame ▸ hSkip.2,
        .inl ⟨file, entry, rest, rfl, hMessage, hSame⟩⟩
  | @spawns file entry rest _ hMessage =>
    by_cases hRefused : o.sup.Refuses entry.walletId
    · refine absurd hStarts (not_starts ?_)
      simp [Supervisor.onSpawn, hRefused]
    · simp only [unjoined, Supervisor.onSpawn, if_neg hRefused]
        at hStarts
      have hSame := walletId_of_spawned hStarts
      rw [hSame] at hRefused
      exact ⟨fun hSkip => hRefused (.inr (.inr hSkip)),
        .inr fun hBackoff => hRefused (.inr (.inl hBackoff))⟩
  | @joins i task how _ _ _ =>
    refine absurd hStarts (not_starts ?_)
    unfold joined
    rw [js_onExit]
    exact List.length_eraseIdx_le _ _
  | haltsRegistry _ =>
    exact absurd hStarts (not_starts (Nat.le_refl _))
  | haltsConfig _ =>
    exact absurd hStarts (not_starts (Nat.le_refl _))
  | ends _ _ =>
    exact absurd hStarts (not_starts (Nat.le_of_eq List.length_set))
  | fails _ _ =>
    exact absurd hStarts (not_starts (Nat.le_of_eq List.length_set))
  | haltsItself _ _ _ =>
    exact absurd hStarts (not_starts (Nat.le_of_eq List.length_set))
  | hasHalted _ _ _ =>
    exact absurd hStarts (not_starts (Nat.le_of_eq List.length_set))
  | forgets _ _ _ =>
    exact absurd hStarts (not_starts (Nat.le_refl _))
  | finds _ _ _ =>
    exact absurd hStarts (not_starts (Nat.le_refl _))
  | sends _ _ _ =>
    exact absurd hStarts (not_starts (Nat.le_refl _))
  | loads _ => exact absurd hStarts (not_starts (Nat.le_refl _))
  | feeds _ _ => exact absurd hStarts (not_starts (Nat.le_refl _))
  | changes => exact absurd hStarts (not_starts (Nat.le_refl _))

/- What is to be restarted was so before, or its worker's exit came. -/
theorem RestartEffect.pending
    (hEffect : RestartEffect o e o')
    (hMem : w ∈ o'.restarts) :
    w ∈ o.restarts ∨ ∃ i, e = .join i ∧ w ∈ o.unjoined := by
  cases hEffect with
  | kept hRestarts _ _ => exact .inl (hRestarts.mem_iff.mpr hMem)
  | answered _ hRestarts _ _ =>
    exact .inl (hRestarts.mem_iff.mpr (List.mem_cons_of_mem _ hMem))
  | begun hWas hRestarts _ _ =>
    rcases List.mem_cons.mp (hRestarts.mem_iff.mp hMem) with
      rfl | hOld
    · exact .inr ⟨_, rfl, hWas⟩
    · exact .inl hOld
  | lost _ _ hRestarts _ _ =>
    exact .inl (hRestarts.mem_iff.mpr (List.mem_cons_of_mem _ hMem))

end Consistent

end Orchestrator

------------------------------------------------------------
-- The specification
------------------------------------------------------------

section Spec

variable {registry : List WalletFullEntry}
variable {es : List OrchestratorEvent} {o : Orchestrator}
variable {w : WalletId}

/- What is to be restarted is so by the back-off that is pending. -/
theorem pendingSince_of_exec
    (hExec : Orchestrator.system.exec (.new registry) es = some o) :
    ∀ w ∈ o.restarts, PendingSince registry es w := by
  refine Orchestrator.system.exec_induction
    (P := fun es o => ∀ w ∈ o.restarts, PendingSince registry es w)
    ?_ ?_ hExec
  · intro w hMem
    simp [Orchestrator.restarts, Orchestrator.new] at hMem
  · intro es o e o' hBefore hPending hStep w hMem
    have hO := Orchestrator.consistent_of_exec hBefore
    have hAfter := hO.step hStep
    have hIdle : w ∉ o'.unjoined := fun hIn =>
      (hAfter.backedOff w hMem).2
        ((Orchestrator.mem_unjoined_iff hAfter).mp hIn)
    have hEffect :=
      Orchestrator.restartEffect_of_does hO
        (Orchestrator.does_of_step hStep)
    by_cases hOld : w ∈ o.restarts
    · rcases hPending w hOld with
        ⟨pre, i, post, before, after, rfl, hPre, hJoin, hWas, hFree,
          hBegun, hSince⟩
      refine ⟨pre, i, post ++ [e], before, after, ?_, hPre, hJoin,
        hWas, hFree, hBegun, hSince.snoc fun t hThen => ?_⟩
      · rw [List.append_assoc, List.cons_append]
      · have hWhole :
            Orchestrator.system.exec (.new registry)
                (pre ++ .join i :: (post ++ [e])) =
              some t :=
          Transition.exec_append.mpr ⟨before, hPre,
            Transition.exec_cons.mpr ⟨after, hJoin, hThen⟩⟩
        have hLast :
            Orchestrator.system.exec (.new registry)
                (pre ++ .join i :: (post ++ [e])) =
              some o' := by
          rw [← List.cons_append, ← List.append_assoc]
          exact Transition.exec_append_singleton.mpr
            ⟨o, hBefore, hStep⟩
        rw [hWhole] at hLast
        cases hLast
        exact hIdle
    · rcases hEffect.pending hMem with hStill | ⟨i, rfl, hWas⟩
      · exact absurd hStill hOld
      · exact ⟨es, i, [], o, o', rfl, hBefore, hStep, hWas, hOld,
          hMem, Transition.throughout_nil hIdle⟩

/-
  A worker has one task, the active wallets are those whose
  worker's exit has not been taken, and no worker is started out
  of turn: whatever happened, in whatever order.
-/
theorem workerSpec_unjoined
    (hExec : Orchestrator.system.exec (.new registry) es = some o) :
    WorkerSpec Orchestrator.unjoined registry es o := by
  have hO := Orchestrator.consistent_of_exec hExec
  refine ⟨hO.sup.once, hO.sup.active, fun e o' w hStep hStarts => ?_⟩
  rcases Orchestrator.startedBy (Orchestrator.does_of_step hStep)
      hStarts with
    ⟨hSkip, ⟨file, entry, rest, rfl, hMessage, rfl⟩ | hOut⟩
  · refine ⟨hSkip, fun _ => ⟨⟨file, rfl⟩, ⟨entry, rest, hMessage, rfl⟩,
      pendingSince_of_exec hExec _ ?_⟩⟩
    unfold Orchestrator.restarts
    rw [hMessage]
    exact List.mem_append_right _ List.mem_cons_self
  · exact ⟨hSkip, fun hBackoff => absurd hBackoff hOut⟩

end Spec

------------------------------------------------------------
-- Runs
------------------------------------------------------------

def sampleRow : WalletFullEntry where
  walletId := "wallet_001"
  keypairPath := some "/run/keys/wallet_001.json"
  registryStatus := "enabled"

def sampleKeypair : KeypairFile :=
  .bytes (List.replicate 64 0)

/- A wallet is loaded and gets its worker. -/
def sampleStart : List OrchestratorEvent :=
  [.load true, .feed, .spawn sampleKeypair]

/- The worker panics and is restarted after its back-off. -/
def sampleRestart : List OrchestratorEvent :=
  sampleStart ++
    [.workerEnds 0 .panicked, .join 0, .timerQuery 0 true,
      .timerSend 0, .restart sampleKeypair]

theorem workerSpec_sampleRestart :
    ∃ o,
      Orchestrator.system.exec (.new [sampleRow]) sampleRestart =
          some o ∧
        o.running = ["wallet_001"] ∧
          WorkerSpec Orchestrator.unjoined [sampleRow] sampleRestart
            o := by
  rcases Orchestrator.system.exists_exec_of_any (.new [sampleRow])
      sampleRestart (fun o => o.running = ["wallet_001"])
      (by decide +kernel) with
    ⟨o, hExec, hRuns⟩
  exact ⟨o, hExec, of_decide_eq_true hRuns, workerSpec_unjoined hExec⟩

/-
  A wallet whose worker has returned is still active, until the
  loop has taken the exit.
-/
theorem not_workerSpec_running :
    ∃ registry es o,
      Orchestrator.system.exec (.new registry) es = some o ∧
        ¬WorkerSpec Orchestrator.running registry es o := by
  rcases Orchestrator.system.exists_exec_of_any (.new [sampleRow])
      (sampleStart ++ [.workerEnds 0 .returned])
      (fun o =>
        "wallet_001" ∈ o.sup.activeIds ∧ "wallet_001" ∉ o.running)
      (by decide +kernel) with
    ⟨o, hExec, hState⟩
  rcases of_decide_eq_true hState with ⟨hActive, hOver⟩
  exact ⟨_, _, o, hExec,
    fun hSpec => hOver ((hSpec.active _).mp hActive)⟩

end Pumpy
