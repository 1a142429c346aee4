import Pumpy.Settings.KeypairFile
import Pumpy.Supervisor.Workers

/-
  The keypair the first wallet is registered with: where a start
  of the engine writes it, who removes it again, and what the
  supervisor of this and of later engines builds workers from.
  One engine runs at a time; the registry and the files outlive
  it.

  Key definitions include:
    * `materializeKeypair`
    * `cleanupTempKeypair`
    * `bootstrap`
    * `Deployment`
    * `Deployment.system`
    * `Custody`
    * `Custodial`

  The main result is `custodial_of_exec`.
-/

namespace Pumpy

open Interleaving

------------------------------------------------------------
-- The file of a keypair
------------------------------------------------------------

/- What `Keypair::from_bytes` takes. -/
abbrev Keypair := { bytes : List UInt8 // bytes.length = 64 }

/- The path for a nonce, in eight hexadecimal digits. -/
def temporaryPath (nonce : UInt32) : String :=
  let digits := Nat.toDigits 16 nonce.toNat
  String.ofList
    ("/tmp/.kp".toList ++
      (List.replicate (8 - digits.length) '0' ++ digits))

def isTemporary (path : String) : Bool :=
  "/tmp/.kp".toList.isPrefixOf path.toList

/- How the writing of a file goes. -/
inductive Writing where
  | refused : Writing
  -- The file is there, with the first `n` characters.
  | stopped (n : Nat) : Writing
  | complete : Writing
deriving DecidableEq

/- With the path, unless there is a file already or writing fails. -/
def materializeKeypair
    (keypair : Keypair)
    (nonce : UInt32)
    (writing : Writing)
    (files : Files) : Option String × Files :=
  let path := temporaryPath nonce
  let json := bytesToString keypair
  match files path, writing with
  | none, .stopped n =>
      (none,
        Function.update files path
          (some (String.ofList (json.toList.take n))))
  | none, .complete =>
      (some path, Function.update files path (some json))
  | _, _ => (none, files)

def cleanupTempKeypair
    (path : Option String)
    (removed : Bool)
    (files : Files) : Files :=
  match path with
  | none => files
  | some p =>
      if isTemporary p ∧ removed then
        Function.update files p none
      else
        files

/- How the reading of a file goes, where there is one. -/
inductive Reading where
  | failed (e : String) : Reading
  | done : Reading
deriving DecidableEq

/- What the factory gets of the file of the entry. -/
def readKeypairFile
    (crates : KeyCrates)
    (files : Files)
    (entry : WalletFullEntry)
    (reading : Reading) : KeypairFile :=
  match entry.keypairPath.bind files, reading with
  | none, _ => .readError "No such file or directory (os error 2)"
  | some _, .failed e => .readError e
  | some raw, .done =>
      match crates.fromStr (trim raw) with
      | .error e => .invalidJson e
      | .ok bytes => .bytes bytes

------------------------------------------------------------
-- Registering the first wallet
------------------------------------------------------------

def firstWallet : WalletId :=
  "wallet_001"

/- A start of the engine, as far as the first wallet is concerned. -/
structure Boot where
  keypair : Keypair
  -- The variable `KEYPAIR_PATH`.
  keypairPath : Option String
  nonce : UInt32
  writing : Writing
  -- Whether the registry could be loaded.
  loaded : Bool
  -- Whether the row, where there was none, is inserted.
  inserted : Bool

/- A row that is there is left as it is. -/
def upsertWalletRegistry
    (rows : List WalletFullEntry)
    (walletId : WalletId)
    (keypairPath : Option String)
    (inserted : Bool) : List WalletFullEntry :=
  if inserted ∧ ∀ row ∈ rows, row.walletId ≠ walletId then
    rows ++ [⟨walletId, keypairPath, "enabled"⟩]
  else
    rows

structure Bootstrapped where
  materializedKpPath : Option String
  registry : List WalletFullEntry
  files : Files

/-
  A registry that cannot be loaded is taken for an empty one.
-/
def bootstrap
    (boot : Boot)
    (rows : List WalletFullEntry)
    (files : Files) : Bootstrapped :=
  let allWallets := if boot.loaded then rows else []
  if allWallets.isEmpty then
    let (matPath, files) :=
      match boot.keypairPath with
      | none =>
          materializeKeypair boot.keypair boot.nonce boot.writing files
      | some _ => (none, files)
    { materializedKpPath := matPath
      registry :=
        upsertWalletRegistry rows firstWallet
          (boot.keypairPath.or matPath) boot.inserted
      files := files }
  else
    { materializedKpPath := none, registry := rows, files := files }

------------------------------------------------------------
-- Engine after engine
------------------------------------------------------------

/- An engine that runs, with the path it is to clean up. -/
structure EngineRun where
  materializedKpPath : Option String

/-
  The files, the orchestrator with the registry in it, and the
  engine.  While none runs, the orchestrator is at its start.
-/
structure Deployment where
  files : Files
  orch : Orchestrator
  engine : Option EngineRun

/- The events with which no file is read and no path is edited. -/
def OrchestratorEvent.isInternal : OrchestratorEvent → Bool
  | restart _ => false
  | spawn _ => false
  | registry _ => false
  | _ => true

inductive DeploymentEvent where
  | start (boot : Boot) : DeploymentEvent
  | restart (reading : Reading) : DeploymentEvent
  | spawn (reading : Reading) : DeploymentEvent
  | orchestrator (e : OrchestratorEvent) : DeploymentEvent
  -- A pause, a halt or an operator sets the status of a wallet.
  | setStatus (walletId : WalletId) (status : String) : DeploymentEvent
  -- The engine ends after its server has; it cleans up.
  | stop (removed : Bool) : DeploymentEvent
  | crash : DeploymentEvent
  -- Another program writes or removes a file that is not temporary.
  | write (path : String) (content : Option String) : DeploymentEvent

namespace Deployment

def new (files : Files) (rows : List WalletFullEntry) : Deployment where
  files := files
  orch := .new rows
  engine := none

/- Nothing but the files and the registry outlives an engine. -/
def ended (d : Deployment) (files : Files) : Deployment :=
  new files d.orch.registry

def started (d : Deployment) (boot : Boot) : Deployment :=
  let b := bootstrap boot d.orch.registry d.files
  { files := b.files
    orch := .new b.registry
    engine := some ⟨b.materializedKpPath⟩ }

def setStatus
    (d : Deployment)
    (walletId : WalletId)
    (status : String) : Deployment :=
  { d with
    orch := { d.orch with
      registry := d.orch.registry.map fun row =>
        if row.walletId = walletId then
          { row with registryStatus := status }
        else
          row } }

/- A step of the orchestrator. -/
def orchestrate
    (d : Deployment)
    (e : OrchestratorEvent) : Option Deployment :=
  (d.orch.step e).map fun o => { d with orch := o }

def step
    (crates : KeyCrates)
    (d : Deployment)
    (event : DeploymentEvent) : Option Deployment :=
  match d.engine, event with
  | none, .start boot => some (d.started boot)
  | some _, .restart reading =>
      d.orch.restartRx.head?.bind fun entry =>
        d.orchestrate
          (.restart (readKeypairFile crates d.files entry reading))
  | some _, .spawn reading =>
      d.orch.spawnRx.head?.bind fun entry =>
        d.orchestrate
          (.spawn (readKeypairFile crates d.files entry reading))
  | some _, .orchestrator e =>
      if e.isInternal then d.orchestrate e else none
  | some run, .stop removed =>
      some (d.ended
        (cleanupTempKeypair run.materializedKpPath removed d.files))
  | some _, .crash => some (d.ended d.files)
  | _, .setStatus walletId status => some (d.setStatus walletId status)
  | _, .write path content =>
      if isTemporary path then
        none
      else
        some { d with files := Function.update d.files path content }
  | _, _ => none

/- The deployment as a transition system. -/
def system
    (crates : KeyCrates) : Transition DeploymentEvent Deployment where
  step := step crates

end Deployment

------------------------------------------------------------
-- What becomes of the keypair
------------------------------------------------------------

/-
  Where the keypair is that the first wallet is registered with.
  It is in the engine's `own` hands while the engine that wrote
  it runs.
-/
inductive Custody where
  | unregistered : Custody
  | kept (path : String) (keypair : Keypair) (own : Bool) : Custody
  | lost (path : String) : Custody
  -- A file the engine did not write whole, or none.
  | elsewhere (path : Option String) : Custody

namespace Custody

/- The engine takes the registry for empty. -/
def TakenForEmpty (boot : Boot) (rows : List WalletFullEntry) : Prop :=
  boot.loaded = false ∨ rows = []

instance (boot : Boot) (rows : List WalletFullEntry) :
    Decidable (TakenForEmpty boot rows) :=
  inferInstanceAs (Decidable (_ ∨ _))

/- The start writes the whole file at its own path. -/
def WritesOut (boot : Boot) (files : Files) : Prop :=
  boot.keypairPath = none ∧ boot.writing = .complete ∧
    files (temporaryPath boot.nonce) = none

instance (boot : Boot) (files : Files) :
    Decidable (WritesOut boot files) :=
  inferInstanceAs (Decidable (_ ∧ _ ∧ _))

/- The first row: the file is the engine's own if it wrote one. -/
def registered (boot : Boot) (files : Files) : Custody :=
  if WritesOut boot files then
    .kept (temporaryPath boot.nonce) boot.keypair true
  else
    .elsewhere boot.keypairPath

/-
  A file that is gone comes back only if a later engine that
  cannot load the registry draws the very same nonce.
-/
def redrawn (boot : Boot) (path : String) : Custody :=
  if boot.loaded = false ∧ boot.keypairPath = none ∧
      temporaryPath boot.nonce = path ∧ boot.writing ≠ .refused then
    if boot.writing = .complete then
      .kept path boot.keypair true
    else
      .elsewhere (some path)
  else
    .lost path

def onStart (d : Deployment) (boot : Boot) : Custody → Custody
  | unregistered =>
      if TakenForEmpty boot d.orch.registry ∧ boot.inserted then
        registered boot d.files
      else
        unregistered
  | kept path keypair _ => kept path keypair false
  | lost path => redrawn boot path
  | elsewhere path => elsewhere path

def onStop (removed : Bool) : Custody → Custody
  | kept path keypair own =>
      if own ∧ removed then lost path else kept path keypair false
  | c => c

def onCrash : Custody → Custody
  | kept path keypair _ => kept path keypair false
  | c => c

/- What an event does to it. -/
def after
    (d : Deployment)
    (event : DeploymentEvent)
    (c : Custody) : Custody :=
  match event with
  | .start boot => c.onStart d boot
  | .stop removed => c.onStop removed
  | .crash => c.onCrash
  | _ => c

/- What the first wallet's row says. -/
def Names (c : Custody) (entry : WalletFullEntry) : Prop :=
  match c with
  | unregistered => entry.walletId ≠ firstWallet
  | kept path _ _ =>
      entry.walletId = firstWallet → entry.keypairPath = some path
  | lost path =>
      entry.walletId = firstWallet → entry.keypairPath = some path
  | elsewhere path =>
      entry.walletId = firstWallet → entry.keypairPath = path

/- What a worker of the first wallet can be. -/
def Backs (c : Custody) (worker : WalletWorker) : Prop :=
  match c with
  | unregistered => worker.walletId ≠ firstWallet
  | kept _ keypair _ =>
      worker.walletId = firstWallet → worker.keypairBytes = keypair
  | lost _ => worker.walletId ≠ firstWallet
  | elsewhere none => worker.walletId ≠ firstWallet
  | elsewhere (some _) => True

/- What building a worker of the first wallet gives. -/
def Yields
    (c : Custody)
    (reading : Reading)
    (outcome : BuildOutcome) : Prop :=
  match c with
  | kept _ keypair _ =>
      match reading with
      | .done => outcome = .built ⟨firstWallet, keypair⟩
      | .failed e => outcome = .failed ("read error: " ++ e)
  | lost _ =>
      outcome =
        .failed "read error: No such file or directory (os error 2)"
  | elsewhere none =>
      outcome = .failed "wallet 'wallet_001' has no keypair_path"
  | _ => True

end Custody

/-
  The registry, the workers and the outcome of every build are as
  the custody of the keypair has it.
-/
structure Custodial
    (crates : KeyCrates)
    (c : Custody)
    (d : Deployment) : Prop where
  rows : ∀ row ∈ d.orch.registry, c.Names row
  workers : ∀ task ∈ d.orch.sup.js, c.Backs task.worker
  builds :
    ∀ entry reading,
      entry.walletId = firstWallet →
        (entry ∈ d.orch.spawnRx ∨ entry ∈ d.orch.restartRx) →
          c.Yields reading
            (WorkerFactory.build entry
              (readKeypairFile crates d.files entry reading))

------------------------------------------------------------
-- Entries and workers of an orchestrator
------------------------------------------------------------

/- Every entry there is, is one of `Q`, and every worker one of `R`. -/
structure Provided
    (Q : WalletFullEntry → Prop)
    (R : WalletWorker → Prop)
    (o : Orchestrator) : Prop where
  registry : ∀ row ∈ o.registry, Q row
  feeding : ∀ entry ∈ o.feeding, Q entry
  spawnRx : ∀ entry ∈ o.spawnRx, Q entry
  restartRx : ∀ entry ∈ o.restartRx, Q entry
  timers :
    ∀ timer ∈ o.timers, ∀ entry, timer.found = some entry → Q entry
  workers : ∀ task ∈ o.sup.js, R task.worker

section Provided

variable {Q : WalletFullEntry → Prop} {R : WalletWorker → Prop}
variable {o o' : Orchestrator} {rows : List WalletFullEntry}
variable {sup : Supervisor} {entry : WalletFullEntry}
variable {file : KeypairFile}

/- At its start, an orchestrator has only the registry. -/
theorem provided_new
    (hRows : ∀ row ∈ rows, Q row) :
    Provided Q R (.new rows) where
  registry := hRows
  feeding := by simp [Orchestrator.new]
  spawnRx := by simp [Orchestrator.new]
  restartRx := by simp [Orchestrator.new]
  timers := by simp [Orchestrator.new]
  workers := by simp [Orchestrator.new, Supervisor.new]

/- A worker that is new is one the factory built. -/
theorem workers_spawnEntry
    (hWorkers : ∀ task ∈ sup.js, R task.worker)
    (hBuild :
      ∀ worker, WorkerFactory.build entry file = .built worker →
        R worker) :
    ∀ task ∈ (sup.spawnEntry entry file).js, R task.worker := by
  unfold Supervisor.spawnEntry
  cases hBuilt : WorkerFactory.build entry file with
  | built worker =>
      intro task hTask
      rcases List.mem_append.mp hTask with hOld | hNew
      · exact hWorkers task hOld
      · rw [List.mem_singleton.mp hNew]
        exact hBuild worker hBuilt
  | failed reason =>
      dsimp only
      split
      · exact hWorkers
      · exact hWorkers

theorem workers_onRestart
    (hWorkers : ∀ task ∈ sup.js, R task.worker)
    (hBuild :
      ∀ worker, WorkerFactory.build entry file = .built worker →
        R worker) :
    ∀ task ∈ (sup.onRestart entry file).js, R task.worker := by
  unfold Supervisor.onRestart
  dsimp only
  split
  · exact hWorkers
  · exact workers_spawnEntry hWorkers hBuild

theorem workers_onSpawn
    (hWorkers : ∀ task ∈ sup.js, R task.worker)
    (hBuild :
      ∀ worker, WorkerFactory.build entry file = .built worker →
        R worker) :
    ∀ task ∈ (sup.onSpawn entry file).js, R task.worker := by
  unfold Supervisor.onSpawn
  split
  · exact hWorkers
  · exact workers_spawnEntry hWorkers hBuild

/- A message is taken, and the supervisor has the workers of `R`. -/
theorem Provided.restarts
    {rest : List WalletFullEntry}
    (hProvided : Provided Q R o)
    (hMessage : o.restartRx = entry :: rest)
    (hWorkers : ∀ task ∈ sup.js, R task.worker) :
    Provided Q R { o with sup := sup, restartRx := rest } :=
  { hProvided with
    restartRx := fun e hMem =>
      hProvided.restartRx e (hMessage ▸ List.mem_cons_of_mem entry hMem)
    workers := hWorkers }

theorem Provided.spawns
    {rest : List WalletFullEntry}
    (hProvided : Provided Q R o)
    (hMessage : o.spawnRx = entry :: rest)
    (hWorkers : ∀ task ∈ sup.js, R task.worker) :
    Provided Q R { o with sup := sup, spawnRx := rest } :=
  { hProvided with
    spawnRx := fun e hMem =>
      hProvided.spawnRx e (hMessage ▸ List.mem_cons_of_mem entry hMem)
    workers := hWorkers }

/- The timers that are new have found nothing yet. -/
theorem Provided.joins
    {i : Nat}
    {task : WorkerTask}
    {how : WorkerEnd}
    (hProvided : Provided Q R o) :
    Provided Q R
      { o with
        sup := (o.joined i task how).1
        timers :=
          o.timers ++
            (o.joined i task how).2.toList.map fun wid => ⟨wid, none⟩ } := by
  refine { hProvided with timers := ?_, workers := ?_ }
  · intro timer hTimer e hFound
    rcases List.mem_append.mp hTimer with hOld | hNew
    · exact hProvided.timers timer hOld e hFound
    · rcases List.mem_map.mp hNew with ⟨wid, -, rfl⟩
      cases hFound
  · intro other hOther
    have hJoined := hOther
    rw [Orchestrator.joined, Orchestrator.js_onExit] at hJoined
    exact hProvided.workers other (List.mem_of_mem_eraseIdx hJoined)

/- A halt sets a status. -/
theorem Provided.haltedRows
    (hProvided : Provided Q R o)
    (hStatus :
      ∀ row status, Q row → Q { row with registryStatus := status })
    (walletId : WalletId)
    (ok : Bool) :
    ∀ row ∈ o.haltedRows walletId ok, Q row := by
  intro row hRow
  unfold Orchestrator.haltedRows at hRow
  split at hRow
  · rcases List.mem_map.mp hRow with ⟨old, hOld, rfl⟩
    split
    · exact hStatus old _ (hProvided.registry old hOld)
    · exact hProvided.registry old hOld
  · exact hProvided.registry row hRow

/- A task goes on, with the worker it has. -/
theorem Provided.withTask
    {i : Nat}
    {task task' : WorkerTask}
    (hProvided : Provided Q R o)
    (hAt : o.sup.js[i]? = some task)
    (hWorker : task'.worker = task.worker) :
    Provided Q R (o.withTask i task') := by
  refine { hProvided with workers := ?_ }
  intro other hOther
  rcases List.mem_or_eq_of_mem_set hOther with hOld | rfl
  · exact hProvided.workers other hOld
  · rw [hWorker]
    exact hProvided.workers task (List.mem_of_getElem? hAt)

theorem Provided.forgets
    (hProvided : Provided Q R o)
    (i : Nat) :
    Provided Q R { o with timers := o.timers.eraseIdx i } :=
  { hProvided with
    timers := fun timer hMem =>
      hProvided.timers timer (List.mem_of_mem_eraseIdx hMem) }

/- What is loaded is of the registry. -/
theorem Provided.loadEnabled
    (hProvided : Provided Q R o)
    (ok : Bool) :
    ∀ e ∈ o.loadEnabledWalletFullEntries ok, Q e := by
  intro e hMem
  unfold Orchestrator.loadEnabledWalletFullEntries at hMem
  split at hMem
  · exact hProvided.registry e (List.mem_filter.mp hMem).1
  · cases hMem

theorem Provided.finds
    {i : Nat}
    {ok : Bool}
    {timer : Timer}
    (hProvided : Provided Q R o)
    (hSome : o.lookUp timer.wid ok = some entry) :
    Provided Q R
      { o with
        timers := o.timers.set i { timer with found := some entry } } := by
  refine { hProvided with timers := ?_ }
  intro other hOther e hFound
  rcases List.mem_or_eq_of_mem_set hOther with hOld | rfl
  · exact hProvided.timers other hOld e hFound
  · cases hFound
    exact hProvided.loadEnabled ok entry (List.mem_of_find?_eq_some hSome)

theorem Provided.sends
    {i : Nat}
    {timer : Timer}
    (hProvided : Provided Q R o)
    (hTimer : o.timers[i]? = some timer)
    (hFound : timer.found = some entry) :
    Provided Q R
      { o with
        timers := o.timers.eraseIdx i
        restartRx := o.restartRx ++ [entry] } := by
  refine { hProvided.forgets i with restartRx := ?_ }
  intro e hMem
  rcases List.mem_append.mp hMem with hOld | hNew
  · exact hProvided.restartRx e hOld
  · rw [List.mem_singleton.mp hNew]
    exact hProvided.timers timer (List.mem_of_getElem? hTimer) entry
      hFound

theorem Provided.feeds
    {rest : List WalletFullEntry}
    (hProvided : Provided Q R o)
    (hNext : o.feeding = entry :: rest) :
    Provided Q R
      { o with feeding := rest, spawnRx := o.spawnRx ++ [entry] } := by
  refine { hProvided with feeding := ?_, spawnRx := ?_ }
  · intro e hMem
    exact hProvided.feeding e (hNext ▸ List.mem_cons_of_mem entry hMem)
  · intro e hMem
    rcases List.mem_append.mp hMem with hOld | hNew
    · exact hProvided.spawnRx e hOld
    · rw [List.mem_singleton.mp hNew]
      exact hProvided.feeding entry (hNext ▸ List.mem_cons_self)

/-
  A step keeps it, if entries are what they are whatever their
  status, and if what the factory builds from the entry that is
  taken is a worker of `R`.
-/
theorem Provided.of_does
    {e : OrchestratorEvent}
    (hProvided : Provided Q R o)
    (hDoes : o.Does e o')
    (hStatus :
      ∀ row status, Q row → Q { row with registryStatus := status })
    (hRegistry : ∀ rows, e = .registry rows → ∀ row ∈ rows, Q row)
    (hBuild :
      ∀ file entry,
        (e = .restart file ∧ o.restartRx.head? = some entry ∨
          e = .spawn file ∧ o.spawnRx.head? = some entry) →
          ∀ worker, WorkerFactory.build entry file = .built worker →
            R worker) :
    Provided Q R o' := by
  cases hDoes with
  | @restarts file entry rest hSelect hMessage =>
      apply hProvided.restarts hMessage
      apply workers_onRestart hProvided.workers
      exact hBuild file entry (.inl ⟨rfl, by rw [hMessage]; rfl⟩)
  | @spawns file entry rest hSelect hMessage =>
      apply hProvided.spawns hMessage
      apply workers_onSpawn hProvided.workers
      exact hBuild file entry (.inr ⟨rfl, by rw [hMessage]; rfl⟩)
  | joins hSelect hAt hEnded => exact hProvided.joins
  | @haltsRegistry ok walletId hHalting =>
      exact { hProvided with
        registry := hProvided.haltedRows hStatus walletId ok }
  | haltsConfig hHalting => exact { hProvided with }
  | ends hAt hRuns => exact hProvided.withTask hAt rfl
  | fails hAt hRuns => exact hProvided.withTask hAt rfl
  | @haltsItself i ok task hAt hRuns hHalting =>
      have hTask :
          Provided Q R
            (o.withTask i { task with stage := .haltsConfig }) :=
        hProvided.withTask hAt rfl
      exact { hTask with
        registry :=
          hProvided.haltedRows hStatus task.worker.walletId ok }
  | hasHalted hAt hRuns hHalting => exact hProvided.withTask hAt rfl
  | forgets hTimer hWaits hNone => exact hProvided.forgets _
  | finds hTimer hWaits hSome => exact hProvided.finds hSome
  | sends hTimer hFound hRoom => exact hProvided.sends hTimer hFound
  | @loads ok hDone =>
      exact { hProvided with feeding := hProvided.loadEnabled ok }
  | feeds hNext hRoom => exact hProvided.feeds hNext
  | changes => exact { hProvided with registry := hRegistry _ rfl }

theorem row_haltedRows
    {walletId : WalletId}
    (hRow : ∃ row ∈ o.registry, row.walletId = walletId)
    (halted : WalletId)
    (ok : Bool) :
    ∃ row ∈ o.haltedRows halted ok, row.walletId = walletId := by
  unfold Orchestrator.haltedRows
  split
  · rcases hRow with ⟨row, hMem, hWallet⟩
    refine ⟨_, List.mem_map_of_mem hMem, ?_⟩
    split
    · exact hWallet
    · exact hWallet
  · exact hRow

/- A wallet with a row has one after every step. -/
theorem row_of_does
    {e : OrchestratorEvent}
    {walletId : WalletId}
    (hDoes : o.Does e o')
    (hRegistry : ∀ rows, e ≠ .registry rows)
    (hRow : ∃ row ∈ o.registry, row.walletId = walletId) :
    ∃ row ∈ o'.registry, row.walletId = walletId := by
  cases hDoes with
  | haltsRegistry hHalting => exact row_haltedRows hRow _ _
  | haltsItself hAt hRuns hHalting => exact row_haltedRows hRow _ _
  | changes => exact absurd rfl (hRegistry _)
  | _ => exact hRow

end Provided

------------------------------------------------------------
-- What a start writes
------------------------------------------------------------

section Bootstrap

variable {boot : Boot} {rows : List WalletFullEntry} {files : Files}
variable {path : String} {content : String}

/- A text starts with what it was put together from. -/
theorem isPrefixOf_ofList (front : String) (back : List Char) :
    front.toList.isPrefixOf
        (String.ofList (front.toList ++ back)).toList = true := by
  rw [String.toList_ofList, List.isPrefixOf_iff_prefix]
  exact List.prefix_append front.toList back

/- A path for a nonce is a temporary one. -/
theorem isTemporary_temporaryPath (nonce : UInt32) :
    isTemporary (temporaryPath nonce) = true := by
  unfold isTemporary temporaryPath
  exact isPrefixOf_ofList "/tmp/.kp" _

/- A file that is there is not written again. -/
theorem materializeKeypair_keeps
    {keypair : Keypair}
    {nonce : UInt32}
    {writing : Writing}
    (hFile : files path = some content) :
    (materializeKeypair keypair nonce writing files).2 path =
      some content := by
  unfold materializeKeypair
  by_cases hSame : path = temporaryPath nonce
  · rw [hSame] at hFile
    simp only [hFile]
    rw [hSame, hFile]
  · dsimp only
    split
    · exact (Function.update_of_ne hSame _ _).trans hFile
    · exact (Function.update_of_ne hSame _ _).trans hFile
    · exact hFile

/- Only the file at the nonce's own path is written. -/
theorem materializeKeypair_other
    {keypair : Keypair}
    {nonce : UInt32}
    {writing : Writing}
    (hOther : path ≠ temporaryPath nonce) :
    (materializeKeypair keypair nonce writing files).2 path =
      files path := by
  unfold materializeKeypair
  dsimp only
  split
  · exact Function.update_of_ne hOther _ _
  · exact Function.update_of_ne hOther _ _
  · rfl

/- The registry is taken for empty, or the start does nothing. -/
theorem bootstrap_cases
    (boot : Boot)
    (rows : List WalletFullEntry)
    (files : Files) :
    (Custody.TakenForEmpty boot rows ∧
        (bootstrap boot rows files).registry =
          upsertWalletRegistry rows firstWallet
            (boot.keypairPath.or
              (bootstrap boot rows files).materializedKpPath)
            boot.inserted ∧
          (boot.keypairPath ≠ none ∧
              (bootstrap boot rows files).materializedKpPath = none ∧
                (bootstrap boot rows files).files = files ∨
            boot.keypairPath = none ∧
              ((bootstrap boot rows files).materializedKpPath,
                  (bootstrap boot rows files).files) =
                materializeKeypair boot.keypair boot.nonce
                  boot.writing files)) ∨
      (¬Custody.TakenForEmpty boot rows ∧
        bootstrap boot rows files = ⟨none, rows, files⟩) := by
  by_cases hEmpty : Custody.TakenForEmpty boot rows
  · left
    have hTaken :
        (if boot.loaded = true then rows else []).isEmpty = true := by
      rcases hEmpty with hLoaded | rfl
      · simp [hLoaded]
      · simp
    refine ⟨hEmpty, ?_⟩
    unfold bootstrap
    dsimp only
    rw [if_pos hTaken]
    cases hPath : boot.keypairPath with
    | none => exact ⟨rfl, .inr ⟨rfl, rfl⟩⟩
    | some p => exact ⟨rfl, .inl ⟨by simp, rfl, rfl⟩⟩
  · right
    have hTaken :
        (if boot.loaded = true then rows else []).isEmpty = false := by
      rw [Custody.TakenForEmpty, not_or, Bool.not_eq_false] at hEmpty
      simp [hEmpty.1, hEmpty.2]
    refine ⟨hEmpty, ?_⟩
    simp [bootstrap, hTaken]

/- Once there is a row, the start leaves the registry as it is. -/
theorem registry_bootstrap
    (hRow : ∃ row ∈ rows, row.walletId = firstWallet) :
    (bootstrap boot rows files).registry = rows := by
  rcases bootstrap_cases boot rows files with
    ⟨-, hRegistry, -⟩ | ⟨-, hNothing⟩
  · rw [hRegistry, upsertWalletRegistry, if_neg]
    rintro ⟨-, hAbsent⟩
    rcases hRow with ⟨row, hMem, hFirst⟩
    exact hAbsent row hMem hFirst
  · rw [hNothing]

theorem files_bootstrap
    (hFile : files path = some content) :
    (bootstrap boot rows files).files path = some content := by
  rcases bootstrap_cases boot rows files with
    ⟨-, -, ⟨-, -, hFiles⟩ | ⟨-, hWritten⟩⟩ | ⟨-, hNothing⟩
  · rw [hFiles, hFile]
  · rw [← materializeKeypair_keeps hFile, ← hWritten]
  · rw [hNothing]
    exact hFile

/- What the start is to clean up was not there before. -/
theorem materialized_bootstrap
    (hPath :
      (bootstrap boot rows files).materializedKpPath = some path) :
    files path = none ∧ path = temporaryPath boot.nonce ∧
      Custody.TakenForEmpty boot rows ∧
        boot.keypairPath = none ∧ boot.writing = .complete := by
  rcases bootstrap_cases boot rows files with
    ⟨hEmpty, -, ⟨-, hNone, -⟩ | ⟨hVariable, hWritten⟩⟩ | ⟨-, hNothing⟩
  · rw [hNone] at hPath
    cases hPath
  · have hFirst := congrArg Prod.fst hWritten
    rw [hPath] at hFirst
    unfold materializeKeypair at hFirst
    dsimp only at hFirst
    split at hFirst
    · cases hFirst
    · rename_i hFree hWriting
      cases hFirst
      exact ⟨hFree, rfl, hEmpty, hVariable, hWriting⟩
    · cases hFirst
  · rw [hNothing] at hPath
    cases hPath

/- A start that takes the registry for empty writes the file out. -/
theorem bootstrap_writes
    (hEmpty : Custody.TakenForEmpty boot rows)
    (hWrites : Custody.WritesOut boot files) :
    (bootstrap boot rows files).materializedKpPath =
        some (temporaryPath boot.nonce) ∧
      (bootstrap boot rows files).files (temporaryPath boot.nonce) =
        some (bytesToString boot.keypair) := by
  rcases hWrites with ⟨hVariable, hWriting, hFree⟩
  have hMaterialized :
      materializeKeypair boot.keypair boot.nonce boot.writing files =
        (some (temporaryPath boot.nonce),
          Function.update files (temporaryPath boot.nonce)
            (some (bytesToString boot.keypair))) := by
    rw [hWriting, materializeKeypair]
    simp only [hFree]
  rcases bootstrap_cases boot rows files with
    ⟨-, -, ⟨hSet, -⟩ | ⟨-, hWritten⟩⟩ | ⟨hFilled, -⟩
  · exact absurd hVariable hSet
  · rw [hMaterialized, Prod.mk.injEq] at hWritten
    rw [hWritten.1, hWritten.2]
    exact ⟨rfl, Function.update_self ..⟩
  · exact absurd hEmpty hFilled

/- Without the nonce of a path that is free, it stays free. -/
theorem bootstrap_spares
    (hRows : rows ≠ [])
    (hFree : files path = none)
    (hOther :
      ¬(boot.loaded = false ∧ boot.keypairPath = none ∧
        temporaryPath boot.nonce = path ∧ boot.writing ≠ .refused)) :
    (bootstrap boot rows files).files path = none ∧
      (bootstrap boot rows files).materializedKpPath ≠ some path := by
  constructor
  · rcases bootstrap_cases boot rows files with
      ⟨hEmpty, -, ⟨-, -, hFiles⟩ | ⟨hVariable, hWritten⟩⟩ |
        ⟨-, hNothing⟩
    · rw [hFiles, hFree]
    · have hLoaded : boot.loaded = false := hEmpty.resolve_right hRows
      have hSecond := congrArg Prod.snd hWritten
      dsimp only at hSecond
      rw [hSecond]
      by_cases hPath : path = temporaryPath boot.nonce
      · have hRefused : boot.writing = .refused := by
          by_contra hOpened
          exact hOther ⟨hLoaded, hVariable, hPath.symm, hOpened⟩
        simp [hRefused, materializeKeypair, hFree]
      · rw [materializeKeypair_other hPath, hFree]
    · rw [hNothing]
      exact hFree
  · intro hPath
    rcases materialized_bootstrap hPath with
      ⟨-, hNonce, hEmpty, hVariable, hWriting⟩
    refine hOther
      ⟨hEmpty.resolve_right hRows, hVariable, hNonce.symm, ?_⟩
    rw [hWriting]
    decide

end Bootstrap

------------------------------------------------------------
-- What is kept
------------------------------------------------------------

/- The engine, if one runs, does not clean up the path. -/
def Deployment.Spares (d : Deployment) (path : String) : Prop :=
  ∀ run, d.engine = some run → run.materializedKpPath ≠ some path

namespace Custody

/- Where the file is, and who is to remove it. -/
def Guards (c : Custody) (d : Deployment) : Prop :=
  match c with
  | kept path keypair own =>
      isTemporary path = true ∧
        d.files path = some (bytesToString keypair) ∧
          if own then
            d.engine = some ⟨some path⟩
          else
            d.Spares path
  | lost path =>
      isTemporary path = true ∧ d.files path = none ∧ d.Spares path
  | _ => True

/- What holds of a deployment after every run. -/
structure Inv (c : Custody) (d : Deployment) : Prop where
  provided : Provided c.Names c.Backs d.orch
  row :
    c ≠ unregistered →
      ∃ row ∈ d.orch.registry, row.walletId = firstWallet
  guards : c.Guards d

section Inv

variable {crates : KeyCrates} {c : Custody} {d d' : Deployment}
variable {entry : WalletFullEntry} {reading : Reading}

/- A status says nothing about the path. -/
theorem names_status
    (row : WalletFullEntry)
    (status : String)
    (hNames : c.Names row) :
    c.Names { row with registryStatus := status } := by
  cases c with
  | unregistered => exact hNames
  | kept path keypair own => exact hNames
  | lost path => exact hNames
  | elsewhere path => exact hNames

/- The factory reads back what the start wrote. -/
theorem fromStr_bytesToString
    (crates : KeyCrates)
    (keypair : Keypair) :
    crates.fromStr (trim (bytesToString keypair)) =
      .ok keypair.val := by
  rw [trim_bytesToString, crates.fromStr_ok]
  exact asBytes_bytesToString keypair

/- A temporary path is not empty. -/
theorem isEmpty_of_temporary
    {path : String}
    (hTemporary : isTemporary path = true) :
    path.isEmpty = false := by
  cases hEmpty : path.isEmpty with
  | false => rfl
  | true =>
      rw [String.isEmpty_iff] at hEmpty
      rw [hEmpty] at hTemporary
      exact absurd hTemporary (by decide)

/- Building a worker of the first wallet goes by the custody. -/
theorem yields_of_guards
    (crates : KeyCrates)
    (reading : Reading)
    (hNames : c.Names entry)
    (hFirst : entry.walletId = firstWallet)
    (hGuards : c.Guards d) :
    c.Yields reading
      (WorkerFactory.build entry
        (readKeypairFile crates d.files entry reading)) := by
  cases c with
  | unregistered => trivial
  | kept path keypair own =>
      rcases hGuards with ⟨hTemporary, hFile, -⟩
      have hPath : entry.keypairPath = some path := hNames hFirst
      have hThere :
          entry.keypairPath.bind d.files =
            some (bytesToString keypair) := by
        rw [hPath, Option.bind_some, hFile]
      unfold WorkerFactory.build readKeypairFile
      rw [hPath] at hThere ⊢
      simp only [hThere, isEmpty_of_temporary hTemporary]
      cases reading with
      | failed e => rfl
      | done =>
          simp only [fromStr_bytesToString, keypair.property, hFirst]
          rfl
  | lost path =>
      rcases hGuards with ⟨hTemporary, hFile, -⟩
      have hPath : entry.keypairPath = some path := hNames hFirst
      have hGone : entry.keypairPath.bind d.files = none := by
        rw [hPath, Option.bind_some, hFile]
      unfold WorkerFactory.build readKeypairFile
      rw [hPath] at hGone ⊢
      simp only [hGone, isEmpty_of_temporary hTemporary]
      rfl
  | elsewhere path =>
      cases path with
      | some path => trivial
      | none =>
          have hPath : entry.keypairPath = none := hNames hFirst
          unfold WorkerFactory.build
          rw [hPath, hFirst]
          rfl

/- A worker that is built is one the custody backs. -/
theorem backs_of_built
    {worker : WalletWorker}
    (hInv : c.Inv d)
    (hNames : c.Names entry)
    (hBuilt :
      WorkerFactory.build entry
          (readKeypairFile crates d.files entry reading) =
        .built worker) :
    c.Backs worker := by
  have hWallet := Supervisor.walletId_of_built hBuilt
  by_cases hFirst : entry.walletId = firstWallet
  · have hYields :=
      yields_of_guards crates reading hNames hFirst hInv.guards
    rw [hBuilt] at hYields
    cases c with
    | unregistered => exact absurd hFirst hNames
    | kept path keypair own =>
        cases reading with
        | failed e => cases hYields
        | done =>
            cases hYields
            exact fun _ => rfl
    | lost path => cases hYields
    | elsewhere path =>
        cases path with
        | none => cases hYields
        | some path => trivial
  · have hOther : worker.walletId ≠ firstWallet := by
      rw [hWallet]
      exact hFirst
    cases c with
    | unregistered => exact hOther
    | kept path keypair own => exact fun hSame => absurd hSame hOther
    | lost path => exact hOther
    | elsewhere path =>
        cases path with
        | none => exact hOther
        | some path => trivial

/- The custody, once it is said what the deployment promises. -/
theorem Inv.custodial
    (crates : KeyCrates)
    (hInv : c.Inv d) :
    Custodial crates c d where
  rows := hInv.provided.registry
  workers := hInv.provided.workers
  builds entry reading hFirst hQueued := by
    have hNames : c.Names entry := by
      rcases hQueued with hSpawn | hRestart
      · exact hInv.provided.spawnRx entry hSpawn
      · exact hInv.provided.restartRx entry hRestart
    exact yields_of_guards crates reading hNames hFirst hInv.guards

/- A step of the orchestrator changes neither rows nor files. -/
theorem Inv.orchestrate
    {e : OrchestratorEvent}
    (crates : KeyCrates)
    (hInv : c.Inv d)
    (hStep : d.orchestrate e = some d')
    (hRegistry : ∀ rows, e ≠ .registry rows)
    (hBuild :
      ∀ file entry,
        (e = .restart file ∧ d.orch.restartRx.head? = some entry ∨
          e = .spawn file ∧ d.orch.spawnRx.head? = some entry) →
          ∃ reading,
            file = readKeypairFile crates d.files entry reading) :
    c.Inv d' := by
  rcases Option.map_eq_some_iff.mp hStep with ⟨o, hOrch, rfl⟩
  have hDoes := Orchestrator.does_of_step hOrch
  constructor
  · refine hInv.provided.of_does hDoes names_status ?_ ?_
    · intro rows hRows
      exact absurd hRows (hRegistry rows)
    · intro file entry hTaken worker hBuilt
      rcases hBuild file entry hTaken with ⟨reading, rfl⟩
      have hNames : c.Names entry := by
        rcases hTaken with ⟨-, hHead⟩ | ⟨-, hHead⟩
        · exact hInv.provided.restartRx entry
            (List.mem_of_head? hHead)
        · exact hInv.provided.spawnRx entry
            (List.mem_of_head? hHead)
      exact backs_of_built hInv hNames hBuilt
  · intro hRegistered
    exact row_of_does hDoes hRegistry (hInv.row hRegistered)
  · exact hInv.guards

/- A restart message is taken, and its file read. -/
theorem Inv.restart
    (hInv : c.Inv d)
    (hHead : d.orch.restartRx.head? = some entry)
    (hStep :
      d.orchestrate
          (.restart (readKeypairFile crates d.files entry reading)) =
        some d') :
    c.Inv d' := by
  apply hInv.orchestrate crates hStep
  · rintro rows ⟨⟩
  · rintro file taken (⟨hFile, hTaken⟩ | ⟨hFile, -⟩)
    · rw [hHead] at hTaken
      cases hTaken
      cases hFile
      exact ⟨reading, rfl⟩
    · cases hFile

theorem Inv.spawn
    (hInv : c.Inv d)
    (hHead : d.orch.spawnRx.head? = some entry)
    (hStep :
      d.orchestrate
          (.spawn (readKeypairFile crates d.files entry reading)) =
        some d') :
    c.Inv d' := by
  apply hInv.orchestrate crates hStep
  · rintro rows ⟨⟩
  · rintro file taken (⟨hFile, -⟩ | ⟨hFile, hTaken⟩)
    · cases hFile
    · rw [hHead] at hTaken
      cases hTaken
      cases hFile
      exact ⟨reading, rfl⟩

/- What the orchestrator does without a file. -/
theorem Inv.internal
    {e : OrchestratorEvent}
    (crates : KeyCrates)
    (hInv : c.Inv d)
    (hInternal : e.isInternal = true)
    (hStep : d.orchestrate e = some d') :
    c.Inv d' := by
  apply hInv.orchestrate crates hStep
  · rintro rows rfl
    cases hInternal
  · rintro file taken (⟨rfl, -⟩ | ⟨rfl, -⟩)
    · cases hInternal
    · cases hInternal

/- An engine that ends leaves the registry and the files. -/
theorem provided_ended
    {c' : Custody}
    {files : Files}
    (hInv : c.Inv d)
    (hNames : ∀ entry, c.Names entry → c'.Names entry) :
    Provided c'.Names c'.Backs (d.ended files).orch :=
  provided_new fun row hRow =>
    hNames row (hInv.provided.registry row hRow)

theorem spares_ended
    {files : Files}
    (path : String) :
    (d.ended files).Spares path := by
  intro run hRun
  cases hRun

/- A file another engine wrote stays when an engine cleans up. -/
theorem cleanup_spares
    {run : EngineRun}
    {path : String}
    {removed : Bool}
    (hRun : d.engine = some run)
    (hSpares : d.Spares path) :
    cleanupTempKeypair run.materializedKpPath removed d.files path =
      d.files path := by
  have hOther := hSpares run hRun
  unfold cleanupTempKeypair
  cases hPath : run.materializedKpPath with
  | none => rfl
  | some p =>
      dsimp only
      split
      · apply Function.update_of_ne
        rintro rfl
        exact hOther hPath
      · rfl

theorem Inv.stop
    {run : EngineRun}
    {removed : Bool}
    (hInv : c.Inv d)
    (hRun : d.engine = some run) :
    (c.onStop removed).Inv
      (d.ended
        (cleanupTempKeypair run.materializedKpPath removed
          d.files)) := by
  have hGuards := hInv.guards
  cases c with
  | unregistered =>
      exact ⟨provided_ended hInv fun _ hNames => hNames,
        fun hRegistered => absurd rfl hRegistered, trivial⟩
  | elsewhere path =>
      exact ⟨provided_ended hInv fun _ hNames => hNames, hInv.row,
        trivial⟩
  | lost path =>
      rcases hGuards with ⟨hTemporary, hFile, hSpares⟩
      refine ⟨provided_ended hInv fun _ hNames => hNames, hInv.row,
        hTemporary, ?_, spares_ended path⟩
      exact (cleanup_spares hRun hSpares).trans hFile
  | kept path keypair own =>
      rcases hGuards with ⟨hTemporary, hFile, hOwn⟩
      have hRow := hInv.row (by simp)
      rw [onStop]
      cases own with
      | false =>
          rw [if_neg (by simp)]
          refine ⟨provided_ended hInv fun _ hNames => hNames,
            fun _ => hRow, hTemporary, ?_, spares_ended path⟩
          exact (cleanup_spares hRun hOwn).trans hFile
      | true =>
          have hSame : run.materializedKpPath = some path := by
            have hBoth := hRun.symm.trans hOwn
            cases hBoth
            rfl
          rw [hSame]
          cases removed with
          | false =>
              rw [if_neg (by simp)]
              refine ⟨provided_ended hInv fun _ hNames => hNames,
                fun _ => hRow, hTemporary, ?_, spares_ended path⟩
              change cleanupTempKeypair (some path) false d.files path =
                _
              rw [cleanupTempKeypair, if_neg (by simp), hFile]
          | true =>
              rw [if_pos ⟨rfl, rfl⟩]
              refine ⟨provided_ended hInv fun _ hNames => hNames,
                fun _ => hRow, hTemporary, ?_, spares_ended path⟩
              change cleanupTempKeypair (some path) true d.files path =
                none
              rw [cleanupTempKeypair, if_pos ⟨hTemporary, rfl⟩,
                Function.update_self]

theorem Inv.crash
    (hInv : c.Inv d) :
    c.onCrash.Inv (d.ended d.files) := by
  have hGuards := hInv.guards
  cases c with
  | unregistered =>
      exact ⟨provided_ended hInv fun _ hNames => hNames,
        fun hRegistered => absurd rfl hRegistered, trivial⟩
  | elsewhere path =>
      exact ⟨provided_ended hInv fun _ hNames => hNames, hInv.row,
        trivial⟩
  | lost path =>
      exact ⟨provided_ended hInv fun _ hNames => hNames, hInv.row,
        hGuards.1, hGuards.2.1, spares_ended path⟩
  | kept path keypair own =>
      exact ⟨provided_ended hInv fun _ hNames => hNames,
        fun _ => hInv.row (by simp),
        hGuards.1, hGuards.2.1, spares_ended path⟩

/- A start where the first wallet has its row already. -/
theorem provided_started
    {c' : Custody}
    {boot : Boot}
    (hInv : c.Inv d)
    (hRow : ∃ row ∈ d.orch.registry, row.walletId = firstWallet)
    (hNames : ∀ entry, c.Names entry → c'.Names entry) :
    Provided c'.Names c'.Backs (d.started boot).orch := by
  apply provided_new
  intro row hMem
  rw [registry_bootstrap hRow] at hMem
  exact hNames row (hInv.provided.registry row hMem)

theorem row_started
    {boot : Boot}
    (hRow : ∃ row ∈ d.orch.registry, row.walletId = firstWallet) :
    ∃ row ∈ (d.started boot).orch.registry,
      row.walletId = firstWallet := by
  change ∃ row ∈ (bootstrap boot d.orch.registry d.files).registry, _
  rw [registry_bootstrap hRow]
  exact hRow

theorem Inv.startKept
    {boot : Boot}
    {path : String}
    {keypair : Keypair}
    {own : Bool}
    (hInv : (kept path keypair own).Inv d) :
    (kept path keypair false).Inv (d.started boot) := by
  have hRow := hInv.row (by simp)
  rcases hInv.guards with ⟨hTemporary, hFile, -⟩
  refine ⟨provided_started hInv hRow fun _ hNames => hNames,
    fun _ => row_started hRow, hTemporary, files_bootstrap hFile, ?_⟩
  rintro run hRun hSame
  cases hRun
  have hFree := (materialized_bootstrap hSame).1
  rw [hFile] at hFree
  cases hFree

theorem Inv.startLost
    {boot : Boot}
    {path : String}
    (hInv : (lost path).Inv d) :
    (redrawn boot path).Inv (d.started boot) := by
  have hRow := hInv.row (by simp)
  rcases hInv.guards with ⟨hTemporary, hFile, -⟩
  have hRows : d.orch.registry ≠ [] := by
    rcases hRow with ⟨row, hMem, -⟩
    exact List.ne_nil_of_mem hMem
  rw [redrawn]
  split
  · rename_i hRedrawn
    rcases hRedrawn with ⟨hLoaded, hVariable, rfl, -⟩
    split
    · rename_i hWriting
      rcases bootstrap_writes (.inl hLoaded)
          ⟨hVariable, hWriting, hFile⟩ with
        ⟨hPath, hWritten⟩
      refine ⟨provided_started hInv hRow fun _ hNames => hNames,
        fun _ => row_started hRow, hTemporary, hWritten, ?_⟩
      exact congrArg (fun p => some (EngineRun.mk p)) hPath
    · exact ⟨provided_started hInv hRow fun _ hNames => hNames,
        fun _ => row_started hRow, trivial⟩
  · rename_i hOther
    rcases bootstrap_spares hRows hFile hOther with ⟨hGone, hSpared⟩
    refine ⟨provided_started hInv hRow fun _ hNames => hNames,
      fun _ => row_started hRow, hTemporary, hGone, ?_⟩
    rintro run hRun
    cases hRun
    exact hSpared

/- The first row is the start's own, if there is one. -/
theorem Inv.startUnregistered
    {boot : Boot}
    (hInv : unregistered.Inv d) :
    (onStart d boot unregistered).Inv (d.started boot) := by
  have hAbsent := hInv.provided.registry
  have hRows :
      ∀ row ∈ d.orch.registry, row.walletId ≠ firstWallet :=
    hAbsent
  rw [onStart]
  split
  · rename_i hRegisters
    rcases bootstrap_cases boot d.orch.registry d.files with
      ⟨hEmpty, hRegistry, hWay⟩ | ⟨hFilled, -⟩
    · rw [upsertWalletRegistry, if_pos ⟨hRegisters.2, hRows⟩]
        at hRegistry
      have hRow :
          ∃ row ∈ (d.started boot).orch.registry,
            row.walletId = firstWallet := by
        change ∃ row ∈
          (bootstrap boot d.orch.registry d.files).registry, _
        rw [hRegistry]
        exact ⟨_, List.mem_append_right _ (List.mem_singleton_self _),
          rfl⟩
      have hProvided :
          ∀ {c' : Custody},
            (∀ row, row.walletId ≠ firstWallet → c'.Names row) →
              c'.Names
                ⟨firstWallet,
                  boot.keypairPath.or
                    (bootstrap boot d.orch.registry
                      d.files).materializedKpPath,
                  "enabled"⟩ →
                Provided c'.Names c'.Backs (d.started boot).orch := by
        intro c' hOthers hOwn
        apply provided_new
        intro row hMem
        rw [hRegistry] at hMem
        rcases List.mem_append.mp hMem with hOld | hNew
        · exact hOthers row (hRows row hOld)
        · rw [List.mem_singleton.mp hNew]
          exact hOwn
      rw [registered]
      split
      · rename_i hWrites
        rcases bootstrap_writes hEmpty hWrites with ⟨hPath, hWritten⟩
        refine ⟨hProvided ?_ ?_, fun _ => hRow,
          isTemporary_temporaryPath boot.nonce, hWritten, ?_⟩
        · exact fun row hOther hFirst => absurd hFirst hOther
        · intro _
          rw [hPath, hWrites.1]
          rfl
        · exact congrArg (fun p => some (EngineRun.mk p)) hPath
      · rename_i hNot
        refine ⟨hProvided ?_ ?_, fun _ => hRow, trivial⟩
        · exact fun row hOther hFirst => absurd hFirst hOther
        · intro _
          dsimp only
          cases hVariable : boot.keypairPath with
          | some path => rfl
          | none =>
              cases hPath :
                  (bootstrap boot d.orch.registry
                    d.files).materializedKpPath with
              | none => rfl
              | some path =>
                  rcases materialized_bootstrap hPath with
                    ⟨hFree, hNonce, -, -, hWriting⟩
                  rw [hNonce] at hFree
                  exact absurd ⟨hVariable, hWriting, hFree⟩ hNot
    · exact absurd hRegisters.1 hFilled
  · rename_i hNot
    refine ⟨provided_new ?_, fun hRegistered => absurd rfl hRegistered,
      trivial⟩
    intro row hMem
    rcases bootstrap_cases boot d.orch.registry d.files with
      ⟨hEmpty, hRegistry, -⟩ | ⟨-, hNothing⟩
    · rw [hRegistry, upsertWalletRegistry, if_neg] at hMem
      · exact hAbsent row hMem
      · exact fun hInserted => hNot ⟨hEmpty, hInserted.1⟩
    · rw [hNothing] at hMem
      exact hAbsent row hMem

theorem Inv.start
    {boot : Boot}
    (hInv : c.Inv d) :
    (c.onStart d boot).Inv (d.started boot) := by
  cases c with
  | unregistered => exact hInv.startUnregistered
  | kept path keypair own => exact hInv.startKept
  | lost path => exact hInv.startLost
  | elsewhere path =>
      have hRow := hInv.row (by simp)
      exact ⟨provided_started hInv hRow fun _ hNames => hNames,
        fun _ => row_started hRow, trivial⟩

theorem Inv.setStatus
    {walletId : WalletId}
    {status : String}
    (hInv : c.Inv d) :
    c.Inv (d.setStatus walletId status) := by
  constructor
  · refine { hInv.provided with registry := ?_ }
    intro row hRow
    rcases List.mem_map.mp hRow with ⟨old, hOld, rfl⟩
    split
    · exact names_status old status (hInv.provided.registry old hOld)
    · exact hInv.provided.registry old hOld
  · intro hRegistered
    rcases hInv.row hRegistered with ⟨row, hMem, hFirst⟩
    refine ⟨_, List.mem_map_of_mem hMem, ?_⟩
    split
    · exact hFirst
    · exact hFirst
  · exact hInv.guards

/- The files of other programs are none of the engine's. -/
theorem Inv.write
    {path : String}
    {content : Option String}
    (hInv : c.Inv d)
    (hOther : isTemporary path ≠ true) :
    c.Inv { d with files := Function.update d.files path content } := by
  have hFiles :
      ∀ p, isTemporary p = true →
        Function.update d.files path content p = d.files p := by
    intro p hTemporary
    apply Function.update_of_ne
    rintro rfl
    exact hOther hTemporary
  refine ⟨hInv.provided, hInv.row, ?_⟩
  have hGuards := hInv.guards
  cases c with
  | unregistered => trivial
  | elsewhere p => trivial
  | kept p keypair own =>
      exact ⟨hGuards.1, (hFiles p hGuards.1).trans hGuards.2.1,
        hGuards.2.2⟩
  | lost p =>
      exact ⟨hGuards.1, (hFiles p hGuards.1).trans hGuards.2.1,
        hGuards.2.2⟩

end Inv

end Custody

------------------------------------------------------------
-- Runs
------------------------------------------------------------

namespace Custody

variable {crates : KeyCrates} {c : Custody} {d d' : Deployment}

/- Every event keeps it, the custody with what the event does to it. -/
theorem Inv.step
    {event : DeploymentEvent}
    (hInv : c.Inv d)
    (hStep : d.step crates event = some d') :
    (after d event c).Inv d' := by
  unfold Deployment.step at hStep
  split at hStep
  · cases hStep
    exact hInv.start
  · rcases Option.bind_eq_some_iff.mp hStep with ⟨entry, hHead, hOrch⟩
    exact hInv.restart hHead hOrch
  · rcases Option.bind_eq_some_iff.mp hStep with ⟨entry, hHead, hOrch⟩
    exact hInv.spawn hHead hOrch
  · split at hStep
    · rename_i hInternal
      exact hInv.internal crates hInternal hStep
    · cases hStep
  · rename_i hEngine
    cases hStep
    exact hInv.stop hEngine
  · cases hStep
    exact hInv.crash
  · cases hStep
    exact hInv.setStatus
  · split at hStep
    · cases hStep
    · rename_i hOther
      cases hStep
      exact hInv.write hOther
  · cases hStep

end Custody

/-
  Whatever engines start, stop and crash, whatever their
  supervisors do, and whatever fails: the first wallet is built
  from the keypair of the engine that registered it, and from
  none once that engine has cleaned up.
-/
theorem custodial_of_exec
    (crates : KeyCrates)
    {files : Files}
    {rows : List WalletFullEntry}
    {es : List DeploymentEvent}
    {d : Deployment}
    {c : Custody}
    (hRows : ∀ row ∈ rows, row.walletId ≠ firstWallet)
    (hRun :
      ((Deployment.system crates).watch Custody.after).exec
          (.new files rows, .unregistered) es =
        some (d, c)) :
    Custodial crates c d := by
  have hStart : Custody.unregistered.Inv (.new files rows) :=
    ⟨provided_new hRows, fun hRegistered => absurd rfl hRegistered,
      trivial⟩
  have hInv : c.Inv d :=
    Transition.exec_induction
      (P := fun _ (s : Deployment × Custody) => s.2.Inv s.1) hStart
      (fun _ _ _ _ _ hBefore hNext => by
        rcases Transition.watch_step.mp hNext with ⟨hStep, hNote⟩
        rw [← hNote]
        exact hBefore.step hStep)
      hRun
  exact hInv.custodial crates

/- A keypair of 64 bytes that are all the same. -/
def sameBytes (b : UInt8) : Keypair :=
  ⟨List.replicate 64 b, List.length_replicate⟩

/- A start on a new path, with nothing in its way. -/
def plainStart (b : UInt8) : DeploymentEvent :=
  .start
    { keypair := sameBytes b
      keypairPath := none
      nonce := b.toUInt32
      writing := .complete
      loaded := true
      inserted := true }

/- The first wallets are loaded, and one is taken. -/
def firstSpawn : List DeploymentEvent :=
  [.orchestrator (.load true), .orchestrator .feed, .spawn .done]

/-
  The first engine's worker has its keypair; once it has stopped,
  an engine with another keypair builds none.
-/
theorem custodial_rotation :
    (∃ d,
        ((Deployment.system plainCrates).watch Custody.after).exec
            (.new (fun _ => none) [], .unregistered)
            (plainStart 0 :: firstSpawn) =
          some (d, .kept (temporaryPath 0) (sameBytes 0) true) ∧
        Custodial plainCrates
          (.kept (temporaryPath 0) (sameBytes 0) true) d) ∧
      ∃ d,
        ((Deployment.system plainCrates).watch Custody.after).exec
            (.new (fun _ => none) [], .unregistered)
            (plainStart 0 :: firstSpawn ++
              .stop true :: plainStart 1 :: firstSpawn) =
          some (d, .lost (temporaryPath 0)) ∧
        Custodial plainCrates (.lost (temporaryPath 0)) d := by
  have hNone : ∀ row ∈ ([] : List WalletFullEntry),
      row.walletId ≠ firstWallet := by
    simp
  have hKept :
      ∃ d,
        ((Deployment.system plainCrates).watch Custody.after).exec
            (.new (fun _ => none) [], .unregistered)
            (plainStart 0 :: firstSpawn) =
          some (d, .kept (temporaryPath 0) (sameBytes 0) true) :=
    ⟨_, rfl⟩
  have hLost :
      ∃ d,
        ((Deployment.system plainCrates).watch Custody.after).exec
            (.new (fun _ => none) [], .unregistered)
            (plainStart 0 :: firstSpawn ++
              .stop true :: plainStart 1 :: firstSpawn) =
          some (d, .lost (temporaryPath 0)) :=
    ⟨_, rfl⟩
  constructor
  · rcases hKept with ⟨d, hRun⟩
    exact ⟨d, hRun, custodial_of_exec plainCrates hNone hRun⟩
  · rcases hLost with ⟨d, hRun⟩
    exact ⟨d, hRun, custodial_of_exec plainCrates hNone hRun⟩

end Pumpy
