import Pumpy.Interleaving.Transition
import Mathlib.Data.List.Basic

/-
  The orchestrator: the supervisor loop and what feeds it.  The
  loop starts a worker for a wallet, takes the exits of workers,
  and sends a wallet whose worker exited into back-off, with a
  timer task that is to ask for a restart.  The initial load and
  the watcher queue the wallets that are enabled.  A worker that
  cannot build its client halts the wallet itself, and returns.

  Key definitions include:
    * `WalletFullEntry`
    * `WorkerFactory.build`
    * `Supervisor`
    * `Supervisor.spawnEntry`
    * `Supervisor.onExit`
    * `Orchestrator`
    * `Orchestrator.system`
    * `Orchestrator.Does`
-/

namespace Pumpy

open Interleaving

------------------------------------------------------------
-- Wallets and their workers
------------------------------------------------------------

abbrev WalletId := String

/- A row of the registry, as much of it as the orchestrator looks at. -/
structure WalletFullEntry where
  walletId : WalletId
  keypairPath : Option String
  registryStatus : String
deriving DecidableEq, Repr

/- What reading a keypair file gives. -/
inductive KeypairFile where
  | readError (e : String) : KeypairFile
  | invalidJson (e : String) : KeypairFile
  | bytes (keypair : List UInt8) : KeypairFile

/- A worker, as much of its configuration as the loop looks at. -/
structure WalletWorker where
  walletId : WalletId
  keypairBytes : List UInt8
deriving DecidableEq, Repr

inductive BuildOutcome where
  | built (worker : WalletWorker) : BuildOutcome
  | failed (reason : String) : BuildOutcome

def WorkerFactory.build
    (entry : WalletFullEntry)
    (file : KeypairFile) : BuildOutcome :=
  match entry.keypairPath with
  | none =>
      .failed ("wallet '" ++ entry.walletId ++ "' has no keypair_path")
  | some path =>
      if path.isEmpty then
        .failed ("wallet '" ++ entry.walletId ++ "' has no keypair_path")
      else
        match file with
        | .readError e => .failed ("read error: " ++ e)
        | .invalidJson e => .failed ("invalid JSON: " ++ e)
        | .bytes keypair =>
            if keypair.length ≠ 64 then
              .failed ("expected 64 bytes, got " ++ toString keypair.length)
            else
              .built ⟨entry.walletId, keypair⟩

/- How the future of a worker ends. -/
inductive WorkerEnd where
  | returned : WorkerEnd
  | panicked : WorkerEnd
deriving DecidableEq, Repr

inductive JoinError where
  | mk : JoinError
deriving DecidableEq, Repr

/- What a worker is at: a statement of its own halt, or its children. -/
inductive WorkerStage where
  | runs : WorkerStage
  | haltsRegistry : WorkerStage
  | haltsConfig : WorkerStage
deriving DecidableEq, Repr

/- A task of the join set; `ended` once it is over, not joined yet. -/
structure WorkerTask where
  worker : WalletWorker
  wid : WalletId
  stage : WorkerStage
  ended : Option WorkerEnd
deriving DecidableEq, Repr

/-
  What joining a task that is over gives.  The task catches the
  panics of its worker, so that both ends give the wallet.
-/
def WorkerTask.result
    (task : WorkerTask) : WorkerEnd → Except JoinError WalletId
  | .returned => .ok task.worker.walletId
  | .panicked => .ok task.wid

------------------------------------------------------------
-- The supervisor
------------------------------------------------------------

def maxRestartAttempts : Nat :=
  3

/- Where the loop waits: at the select, or for a statement of a halt. -/
inductive Awaiting where
  | select : Awaiting
  | haltRegistry (walletId : WalletId) : Awaiting
  | haltConfig (walletId : WalletId) : Awaiting
deriving DecidableEq, Repr

/- The variables of the loop. -/
structure Supervisor where
  js : List WorkerTask
  activeIds : List WalletId
  inBackoff : List WalletId
  runtimeFails : WalletId → Nat
  buildFails : WalletId → Nat
  permanentlySkipped : List WalletId
  awaiting : Awaiting

namespace Supervisor

def new : Supervisor where
  js := []
  activeIds := []
  inBackoff := []
  runtimeFails := fun _ => 0
  buildFails := fun _ => 0
  permanentlySkipped := []
  awaiting := .select

/- Start a worker for the entry, or count the failure to build one. -/
def spawnEntry
    (sup : Supervisor)
    (entry : WalletFullEntry)
    (file : KeypairFile) : Supervisor :=
  let walletId := entry.walletId
  match WorkerFactory.build entry file with
  | .built worker =>
      { sup with
        buildFails := Function.update sup.buildFails walletId 0
        activeIds := sup.activeIds.insert walletId
        js := sup.js ++ [⟨worker, walletId, .runs, none⟩] }
  | .failed _ =>
      let attempts := sup.buildFails walletId + 1
      let counted :=
        { sup with
          buildFails :=
            Function.update sup.buildFails walletId attempts }
      if attempts ≥ maxRestartAttempts then
        { counted with
          permanentlySkipped := sup.permanentlySkipped.insert walletId
          awaiting := .haltRegistry walletId }
      else
        counted

/- A restart message: always processed. -/
def onRestart
    (sup : Supervisor)
    (entry : WalletFullEntry)
    (file : KeypairFile) : Supervisor :=
  let walletId := entry.walletId
  let cleared :=
    { sup with
      inBackoff := sup.inBackoff.filter fun w => w ≠ walletId }
  if walletId ∈ sup.activeIds ∨ walletId ∈ sup.permanentlySkipped then
    cleared
  else
    cleared.spawnEntry entry file

/- What the spawn branch refuses. -/
def Refuses (sup : Supervisor) (walletId : WalletId) : Prop :=
  walletId ∈ sup.activeIds ∨ walletId ∈ sup.inBackoff ∨
    walletId ∈ sup.permanentlySkipped

instance (sup : Supervisor) (walletId : WalletId) :
    Decidable (sup.Refuses walletId) := by
  unfold Refuses
  infer_instance

/- An entry of the initial load or the watcher. -/
def onSpawn
    (sup : Supervisor)
    (entry : WalletFullEntry)
    (file : KeypairFile) : Supervisor :=
  if sup.Refuses entry.walletId then
    sup
  else
    sup.spawnEntry entry file

/-
  The exit of a worker.  With it comes the wallet that a restart
  timer is to be spawned for, if any.
-/
def onExit
    (sup : Supervisor)
    (result : Except JoinError WalletId) :
    Supervisor × Option WalletId :=
  match result with
  | .error _ => (sup, none)
  | .ok walletId =>
      let attempts := sup.runtimeFails walletId + 1
      let counted :=
        { sup with
          activeIds := sup.activeIds.filter fun w => w ≠ walletId
          runtimeFails :=
            Function.update sup.runtimeFails walletId attempts }
      if attempts ≥ maxRestartAttempts then
        ({ counted with
            permanentlySkipped := sup.permanentlySkipped.insert walletId
            awaiting := .haltRegistry walletId },
          none)
      else
        ({ counted with inBackoff := sup.inBackoff.insert walletId },
          some walletId)

end Supervisor

------------------------------------------------------------
-- The orchestrator
------------------------------------------------------------

/-
  A restart timer: it sleeps, asks for the enabled wallets, and
  sends the entry it has `found`.
-/
structure Timer where
  wid : WalletId
  found : Option WalletFullEntry
deriving DecidableEq, Repr

/-
  The supervisor, its two channels, the restart timers, the
  entries the initial load or the watcher has still to send, and
  the rows of the registry, oldest first.
-/
structure Orchestrator where
  sup : Supervisor
  spawnRx : List WalletFullEntry
  restartRx : List WalletFullEntry
  timers : List Timer
  feeding : List WalletFullEntry
  registry : List WalletFullEntry

inductive OrchestratorEvent where
  | restart (file : KeypairFile) : OrchestratorEvent
  | spawn (file : KeypairFile) : OrchestratorEvent
  | join (i : Nat) : OrchestratorEvent
  | haltStatement (ok : Bool) : OrchestratorEvent
  | workerEnds (i : Nat) (how : WorkerEnd) : OrchestratorEvent
  | clientFails (i : Nat) : OrchestratorEvent
  | ownHalt (i : Nat) (ok : Bool) : OrchestratorEvent
  | timerQuery (i : Nat) (ok : Bool) : OrchestratorEvent
  | timerSend (i : Nat) : OrchestratorEvent
  | load (ok : Bool) : OrchestratorEvent
  | feed : OrchestratorEvent
  | registry (rows : List WalletFullEntry) : OrchestratorEvent

namespace Orchestrator

def channelCapacity : Nat :=
  128

def new (registry : List WalletFullEntry) : Orchestrator where
  sup := .new
  spawnRx := []
  restartRx := []
  timers := []
  feeding := []
  registry := registry

/- The enabled wallets, or none if the statement fails. -/
def loadEnabledWalletFullEntries
    (o : Orchestrator)
    (ok : Bool) : List WalletFullEntry :=
  if ok then
    o.registry.filter fun row => row.registryStatus = "enabled"
  else
    []

/- The entry a restart timer for the wallet comes back with. -/
def lookUp
    (o : Orchestrator)
    (walletId : WalletId)
    (ok : Bool) : Option WalletFullEntry :=
  (o.loadEnabledWalletFullEntries ok).find? fun e =>
    e.walletId = walletId

/- A restart message arrives. -/
def restart (o : Orchestrator) (file : KeypairFile) : Option Orchestrator :=
  match o.sup.awaiting, o.restartRx with
  | .select, entry :: rest =>
      some { o with sup := o.sup.onRestart entry file, restartRx := rest }
  | _, _ => none

/- An entry of the initial load or the watcher arrives. -/
def spawn (o : Orchestrator) (file : KeypairFile) : Option Orchestrator :=
  match o.sup.awaiting, o.spawnRx with
  | .select, entry :: rest =>
      some { o with sup := o.sup.onSpawn entry file, spawnRx := rest }
  | _, _ => none

/- The exit of a worker arrives. -/
def join (o : Orchestrator) (i : Nat) : Option Orchestrator :=
  match o.sup.awaiting, o.sup.js[i]? with
  | .select, some task =>
      match task.ended with
      | none => none
      | some how =>
          let joined := { o.sup with js := o.sup.js.eraseIdx i }
          let (sup, timer) := joined.onExit (task.result how)
          some { o with
            sup := sup
            timers :=
              o.timers ++ (timer.toList.map fun wid => ⟨wid, none⟩) }
  | _, _ => none

/- `halt_wallet`: the registry once its first statement is over. -/
def haltedRows
    (o : Orchestrator)
    (walletId : WalletId)
    (ok : Bool) : List WalletFullEntry :=
  if ok then
    o.registry.map fun row =>
      if row.walletId = walletId then
        { row with registryStatus := "halted" }
      else
        row
  else
    o.registry

/- A statement of `halt_wallet` is over, and has had effect if `ok`. -/
def haltStatement (o : Orchestrator) (ok : Bool) : Option Orchestrator :=
  match o.sup.awaiting with
  | .select => none
  | .haltRegistry walletId =>
      some { o with
        sup := { o.sup with awaiting := .haltConfig walletId }
        registry := o.haltedRows walletId ok }
  | .haltConfig _ =>
      some { o with sup := { o.sup with awaiting := .select } }

/- Another task in the place of the `i`-th. -/
def withTask
    (o : Orchestrator)
    (i : Nat)
    (task : WorkerTask) : Orchestrator :=
  { o with sup := { o.sup with js := o.sup.js.set i task } }

/- A worker returns or panics. -/
def workerEnds
    (o : Orchestrator)
    (i : Nat)
    (how : WorkerEnd) : Option Orchestrator :=
  match o.sup.js[i]? with
  | none => none
  | some task =>
      if task.ended = none ∧ task.stage = .runs then
        some (o.withTask i { task with ended := some how })
      else
        none

/- `PumpFunClient::new` fails in a worker. -/
def clientFails (o : Orchestrator) (i : Nat) : Option Orchestrator :=
  match o.sup.js[i]? with
  | none => none
  | some task =>
      if task.ended = none ∧ task.stage = .runs then
        some (o.withTask i { task with stage := .haltsRegistry })
      else
        none

/- A statement of its halt is over; after the second it returns. -/
def ownHalt (o : Orchestrator) (i : Nat) (ok : Bool) : Option Orchestrator :=
  match o.sup.js[i]? with
  | none => none
  | some task =>
      if task.ended = none then
        match task.stage with
        | .runs => none
        | .haltsRegistry =>
            some
              { o.withTask i { task with stage := .haltsConfig } with
                registry := o.haltedRows task.worker.walletId ok }
        | .haltsConfig =>
            some (o.withTask i { task with ended := some .returned })
      else
        none

/- A timer has slept, and asks for the enabled wallets. -/
def timerQuery
    (o : Orchestrator)
    (i : Nat)
    (ok : Bool) : Option Orchestrator :=
  match o.timers[i]? with
  | none => none
  | some timer =>
      match timer.found with
      | some _ => none
      | none =>
          match o.lookUp timer.wid ok with
          | none => some { o with timers := o.timers.eraseIdx i }
          | some entry =>
              some { o with
                timers := o.timers.set i { timer with found := some entry } }

/- A timer sends the entry it has found, if there is room. -/
def timerSend (o : Orchestrator) (i : Nat) : Option Orchestrator :=
  match o.timers[i]? with
  | none => none
  | some timer =>
      match timer.found with
      | none => none
      | some entry =>
          if o.restartRx.length < channelCapacity then
            some { o with
              timers := o.timers.eraseIdx i
              restartRx := o.restartRx ++ [entry] }
          else
            none

/- The initial load, or a tick of the watcher. -/
def load (o : Orchestrator) (ok : Bool) : Option Orchestrator :=
  match o.feeding with
  | [] => some { o with feeding := o.loadEnabledWalletFullEntries ok }
  | _ :: _ => none

/- The next of the loaded entries is sent, if there is room. -/
def feed (o : Orchestrator) : Option Orchestrator :=
  match o.feeding with
  | [] => none
  | entry :: rest =>
      if o.spawnRx.length < channelCapacity then
        some { o with feeding := rest, spawnRx := o.spawnRx ++ [entry] }
      else
        none

def step (o : Orchestrator) : OrchestratorEvent → Option Orchestrator
  | .restart file => o.restart file
  | .spawn file => o.spawn file
  | .join i => o.join i
  | .haltStatement ok => o.haltStatement ok
  | .workerEnds i how => o.workerEnds i how
  | .clientFails i => o.clientFails i
  | .ownHalt i ok => o.ownHalt i ok
  | .timerQuery i ok => o.timerQuery i ok
  | .timerSend i => o.timerSend i
  | .load ok => o.load ok
  | .feed => o.feed
  | .registry rows => some { o with registry := rows }

/- The orchestrator as a transition system. -/
def system : Transition OrchestratorEvent Orchestrator where
  step := step

------------------------------------------------------------
-- What a step can do
------------------------------------------------------------

/- The supervisor once the exit of the `i`-th task has arrived. -/
def joined
    (o : Orchestrator)
    (i : Nat)
    (task : WorkerTask)
    (how : WorkerEnd) : Supervisor × Option WalletId :=
  { o.sup with js := o.sup.js.eraseIdx i }.onExit (task.result how)

/- The events, with what each finds and what it leaves. -/
inductive Does (o : Orchestrator) :
    OrchestratorEvent → Orchestrator → Prop
  | restarts
      {file : KeypairFile}
      {entry : WalletFullEntry}
      {rest : List WalletFullEntry}
      (hSelect : o.sup.awaiting = .select)
      (hMessage : o.restartRx = entry :: rest) :
      Does o (.restart file)
        { o with sup := o.sup.onRestart entry file, restartRx := rest }
  | spawns
      {file : KeypairFile}
      {entry : WalletFullEntry}
      {rest : List WalletFullEntry}
      (hSelect : o.sup.awaiting = .select)
      (hMessage : o.spawnRx = entry :: rest) :
      Does o (.spawn file)
        { o with sup := o.sup.onSpawn entry file, spawnRx := rest }
  | joins
      {i : Nat}
      {task : WorkerTask}
      {how : WorkerEnd}
      (hSelect : o.sup.awaiting = .select)
      (hAt : o.sup.js[i]? = some task)
      (hEnded : task.ended = some how) :
      Does o (.join i)
        { o with
          sup := (o.joined i task how).1
          timers :=
            o.timers ++
              (o.joined i task how).2.toList.map fun wid => ⟨wid, none⟩ }
  | haltsRegistry
      {ok : Bool}
      {walletId : WalletId}
      (hHalting : o.sup.awaiting = .haltRegistry walletId) :
      Does o (.haltStatement ok)
        { o with
          sup := { o.sup with awaiting := .haltConfig walletId }
          registry := o.haltedRows walletId ok }
  | haltsConfig
      {ok : Bool}
      {walletId : WalletId}
      (hHalting : o.sup.awaiting = .haltConfig walletId) :
      Does o (.haltStatement ok)
        { o with sup := { o.sup with awaiting := .select } }
  | ends
      {i : Nat}
      {how : WorkerEnd}
      {task : WorkerTask}
      (hAt : o.sup.js[i]? = some task)
      (hRuns : task.ended = none ∧ task.stage = .runs) :
      Does o (.workerEnds i how)
        (o.withTask i { task with ended := some how })
  | fails
      {i : Nat}
      {task : WorkerTask}
      (hAt : o.sup.js[i]? = some task)
      (hRuns : task.ended = none ∧ task.stage = .runs) :
      Does o (.clientFails i)
        (o.withTask i { task with stage := .haltsRegistry })
  | haltsItself
      {i : Nat}
      {ok : Bool}
      {task : WorkerTask}
      (hAt : o.sup.js[i]? = some task)
      (hRuns : task.ended = none)
      (hHalting : task.stage = .haltsRegistry) :
      Does o (.ownHalt i ok)
        { o.withTask i { task with stage := .haltsConfig } with
          registry := o.haltedRows task.worker.walletId ok }
  | hasHalted
      {i : Nat}
      {ok : Bool}
      {task : WorkerTask}
      (hAt : o.sup.js[i]? = some task)
      (hRuns : task.ended = none)
      (hHalting : task.stage = .haltsConfig) :
      Does o (.ownHalt i ok)
        (o.withTask i { task with ended := some .returned })
  | forgets
      {i : Nat}
      {ok : Bool}
      {timer : Timer}
      (hTimer : o.timers[i]? = some timer)
      (hWaits : timer.found = none)
      (hNone : o.lookUp timer.wid ok = none) :
      Does o (.timerQuery i ok)
        { o with timers := o.timers.eraseIdx i }
  | finds
      {i : Nat}
      {ok : Bool}
      {timer : Timer}
      {entry : WalletFullEntry}
      (hTimer : o.timers[i]? = some timer)
      (hWaits : timer.found = none)
      (hSome : o.lookUp timer.wid ok = some entry) :
      Does o (.timerQuery i ok)
        { o with
          timers := o.timers.set i { timer with found := some entry } }
  | sends
      {i : Nat}
      {timer : Timer}
      {entry : WalletFullEntry}
      (hTimer : o.timers[i]? = some timer)
      (hFound : timer.found = some entry)
      (hRoom : o.restartRx.length < channelCapacity) :
      Does o (.timerSend i)
        { o with
          timers := o.timers.eraseIdx i
          restartRx := o.restartRx ++ [entry] }
  | loads
      {ok : Bool}
      (hDone : o.feeding = []) :
      Does o (.load ok)
        { o with feeding := o.loadEnabledWalletFullEntries ok }
  | feeds
      {entry : WalletFullEntry}
      {rest : List WalletFullEntry}
      (hNext : o.feeding = entry :: rest)
      (hRoom : o.spawnRx.length < channelCapacity) :
      Does o .feed
        { o with feeding := rest, spawnRx := o.spawnRx ++ [entry] }
  | changes
      {rows : List WalletFullEntry} :
      Does o (.registry rows) { o with registry := rows }

/- A step does no more than that. -/
theorem does_of_step
    {o o' : Orchestrator}
    {e : OrchestratorEvent}
    (hStep : o.step e = some o') :
    Does o e o' := by
  cases e with
  | restart file =>
    simp only [step, restart] at hStep
    split at hStep
    · rename_i hSelect hMessage
      cases hStep
      exact .restarts hSelect hMessage
    · cases hStep
  | spawn file =>
    simp only [step, spawn] at hStep
    split at hStep
    · rename_i hSelect hMessage
      cases hStep
      exact .spawns hSelect hMessage
    · cases hStep
  | join i =>
    simp only [step, join] at hStep
    split at hStep
    · rename_i hSelect hAt
      split at hStep
      · cases hStep
      · rename_i hEnded
        cases hStep
        exact .joins hSelect hAt hEnded
    · cases hStep
  | haltStatement ok =>
    simp only [step, haltStatement] at hStep
    split at hStep
    · cases hStep
    · rename_i hHalting
      cases hStep
      exact .haltsRegistry hHalting
    · rename_i hHalting
      cases hStep
      exact .haltsConfig hHalting
  | workerEnds i how =>
    simp only [step, workerEnds] at hStep
    split at hStep
    · cases hStep
    · rename_i hAt
      split at hStep
      · rename_i hRuns
        cases hStep
        exact .ends hAt hRuns
      · cases hStep
  | clientFails i =>
    simp only [step, clientFails] at hStep
    split at hStep
    · cases hStep
    · rename_i hAt
      split at hStep
      · rename_i hRuns
        cases hStep
        exact .fails hAt hRuns
      · cases hStep
  | ownHalt i ok =>
    simp only [step, ownHalt] at hStep
    split at hStep
    · cases hStep
    · rename_i hAt
      split at hStep
      · rename_i hRuns
        split at hStep
        · cases hStep
        · rename_i hHalting
          cases hStep
          exact .haltsItself hAt hRuns hHalting
        · rename_i hHalting
          cases hStep
          exact .hasHalted hAt hRuns hHalting
      · cases hStep
  | timerQuery i ok =>
    simp only [step, timerQuery] at hStep
    split at hStep
    · cases hStep
    · rename_i hTimer
      split at hStep
      · cases hStep
      · rename_i hWaits
        split at hStep
        · rename_i hNone
          cases hStep
          exact .forgets hTimer hWaits hNone
        · rename_i hSome
          cases hStep
          exact .finds hTimer hWaits hSome
  | timerSend i =>
    simp only [step, timerSend] at hStep
    split at hStep
    · cases hStep
    · rename_i hTimer
      split at hStep
      · cases hStep
      · rename_i hFound
        split at hStep
        · rename_i hRoom
          cases hStep
          exact .sends hTimer hFound hRoom
        · cases hStep
  | load ok =>
    simp only [step, load] at hStep
    split at hStep
    · rename_i hDone
      cases hStep
      exact .loads hDone
    · cases hStep
  | feed =>
    simp only [step, feed] at hStep
    split at hStep
    · cases hStep
    · rename_i hNext
      split at hStep
      · rename_i hRoom
        cases hStep
        exact .feeds hNext hRoom
      · cases hStep
  | registry rows =>
    cases hStep
    exact .changes

end Orchestrator

end Pumpy
