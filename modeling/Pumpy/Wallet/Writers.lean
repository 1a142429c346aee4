import Pumpy.Engine.System
import Pumpy.Interleaving.Calls

/-
  The writers of a wallet's status: the routes of the wallet API
  (api-server/src/routes/wallets.ts) and the engine's
  `pause_wallet` and `halt_wallet` (rust-engine/src/database.rs),
  over the tables `wallet_registry` and `wallet_config`.  A route
  writes both tables in one transaction; the engine writes them
  by two statements and logs the errors.

  Key definitions include:
    * `WalletTables`
    * `ConfigBody.configUpdate`
    * `WalletOp`
    * `WalletTask.body`
    * `walletMachine`
-/

namespace Pumpy

open Interleaving

------------------------------------------------------------
-- Tables
------------------------------------------------------------

inductive StrategyPreset where
  | conservative | balanced | aggressive
deriving DecidableEq, Repr

/- A row of `wallet_config`. -/
structure WalletConfigRow where
  riskPerTradeSol : F64
  dailyLossLimitSol : F64
  strategyPreset : StrategyPreset
  status : WalletStatus
  updatedAt : Timestamp
deriving DecidableEq

/- The status column of `wallet_registry` and the other two tables. -/
structure WalletTables where
  registry : String → Option WalletStatus
  config : String → Option WalletConfigRow
  alerts : String → Option Int32

/- The columns an `UPDATE wallet_config` sets. -/
structure ConfigUpdate where
  riskPerTradeSol : Option F64
  dailyLossLimitSol : Option F64
  strategyPreset : Option StrategyPreset
  status : Option WalletStatus
deriving DecidableEq

def ConfigUpdate.apply
    (u : ConfigUpdate)
    (updatedAt : Timestamp)
    (row : WalletConfigRow) : WalletConfigRow where
  riskPerTradeSol := u.riskPerTradeSol.getD row.riskPerTradeSol
  dailyLossLimitSol := u.dailyLossLimitSol.getD row.dailyLossLimitSol
  strategyPreset := u.strategyPreset.getD row.strategyPreset
  status := u.status.getD row.status
  updatedAt := updatedAt

def ConfigUpdate.ofStatus (st : WalletStatus) : ConfigUpdate where
  riskPerTradeSol := none
  dailyLossLimitSol := none
  strategyPreset := none
  status := some st

namespace WalletTables

/- `UPDATE wallet_registry SET status = .. WHERE wallet_id = ..`. -/
def updateRegistry
    (t : WalletTables)
    (id : String)
    (st : WalletStatus) : WalletTables :=
  { t with
    registry :=
      Function.update t.registry id ((t.registry id).map fun _ => st) }

/- `UPDATE wallet_config SET .. WHERE wallet_id = ..`. -/
def updateConfig
    (t : WalletTables)
    (id : String)
    (u : ConfigUpdate)
    (now : Timestamp) : WalletTables :=
  { t with
    config :=
      Function.update t.config id ((t.config id).map (u.apply now)) }

/- The upsert of the alert of an auto-pause. -/
def upsertAlert
    (t : WalletTables)
    (id : String)
    (count : Int32) : WalletTables :=
  { t with alerts := Function.update t.alerts id (some count) }

/- The transaction of the routes that pause, resume and halt. -/
def setStatus
    (t : WalletTables)
    (id : String)
    (st : WalletStatus)
    (now : Timestamp) : WalletTables :=
  (t.updateRegistry id st).updateConfig id (.ofStatus st) now

/-
  The transaction of the route that sets the configuration: the
  registry is written only if there is a row to configure.
-/
def putConfig
    (t : WalletTables)
    (id : String)
    (u : ConfigUpdate)
    (now : Timestamp) : WalletTables :=
  match t.config id, u.status with
  | none, _ => t
  | some _, none => t.updateConfig id u now
  | some _, some st => (t.updateConfig id u now).updateRegistry id st

/- The status the second table holds for a wallet. -/
def configStatus (t : WalletTables) (id : String) : Option WalletStatus :=
  (t.config id).map (·.status)

end WalletTables

------------------------------------------------------------
-- Requests
------------------------------------------------------------

/-
  The fields of a configuration request that are there, each as
  `Number` or `String` makes it.
-/
structure ConfigBody where
  riskPerTradeSol : Option F64
  dailyLossLimitSol : Option F64
  strategyPreset : Option String
  status : Option String
deriving DecidableEq

def validPresets : List (String × StrategyPreset) :=
  [("conservative", .conservative), ("balanced", .balanced),
    ("aggressive", .aggressive)]

def validStatuses : List (String × WalletStatus) :=
  [("enabled", .enabled), ("paused", .paused), ("halted", .halted)]

namespace ConfigBody

/- A number that is there has to be positive; `NaN` is not. -/
def checkPositive
    (field : String)
    (value : Option F64) : Except String (Option F64) :=
  match value with
  | none => .ok none
  | some v =>
      if v.gt (.fin 0) then
        .ok (some v)
      else
        .error (field ++ " must be a positive number")

/- A text that is there has to be one of a set. -/
def checkOneOf
    {α : Type}
    (valid : List (String × α))
    (message : String)
    (value : Option String) : Except String (Option α) :=
  match value with
  | none => .ok none
  | some text =>
      match valid.lookup text with
      | some a => .ok (some a)
      | none => .error message

/- The update a request asks for, or what is wrong with it. -/
def configUpdate
    (body : ConfigBody) : Except String ConfigUpdate := do
  let risk ← checkPositive "risk_per_trade_sol" body.riskPerTradeSol
  let loss ← checkPositive "daily_loss_limit_sol" body.dailyLossLimitSol
  let preset ←
    checkOneOf validPresets
      "strategy_preset must be conservative, balanced, or aggressive"
      body.strategyPreset
  let status ←
    checkOneOf validStatuses
      "status must be enabled, paused, or halted" body.status
  pure ⟨risk, loss, preset, status⟩

end ConfigBody

------------------------------------------------------------
-- Operations
------------------------------------------------------------

/-
  What a writer awaits.  A transaction is one operation, at its
  commit: the rows it has written are locked until then, so that
  every other write to them comes before its own or after it.
-/
inductive WalletOp where
  | setStatus (id : String) (st : WalletStatus) : WalletOp
  | putConfig (id : String) (u : ConfigUpdate) : WalletOp
  | updateRegistryStatus (id : String) (st : WalletStatus) : WalletOp
  | updateConfigStatus (id : String) (st : WalletStatus) : WalletOp
  | upsertWalletAlert (id : String) (count : Int32) : WalletOp
deriving DecidableEq

abbrev WalletOp.Resp : WalletOp → Type
  | setStatus _ _ => Except DbError Unit
  | putConfig _ _ => Except DbError (Option WalletConfigRow)
  | updateRegistryStatus _ _ => Except DbError Unit
  | updateConfigStatus _ _ => Except DbError Unit
  | upsertWalletAlert _ _ => Except DbError Unit

/- The outcome of a statement, and the clock reading it writes. -/
structure WalletOutcome where
  stmt : StmtOutcome
  now : Timestamp

/- The tables after an operation that takes effect. -/
def WalletTables.apply
    (t : WalletTables)
    (now : Timestamp) : WalletOp → WalletTables
  | .setStatus id st => t.setStatus id st now
  | .putConfig id u => t.putConfig id u now
  | .updateRegistryStatus id st => t.updateRegistry id st
  | .updateConfigStatus id st => t.updateConfig id (.ofStatus st) now
  | .upsertWalletAlert id count => t.upsertAlert id count

/- What an operation answers, by whether it is said to succeed. -/
def WalletTables.answer
    (t : WalletTables)
    (out : WalletOutcome) : (op : WalletOp) → op.Resp
  | .setStatus _ _ => out.stmt.result
  | .putConfig id u =>
      out.stmt.result.map fun _ => (t.putConfig id u out.now).config id
  | .updateRegistryStatus _ _ => out.stmt.result
  | .updateConfigStatus _ _ => out.stmt.result
  | .upsertWalletAlert _ _ => out.stmt.result

def WalletTables.exec
    (op : WalletOp)
    (out : WalletOutcome)
    (t : WalletTables) : Option (op.Resp × WalletTables) :=
  some (t.answer out op,
    if out.stmt.applies then t.apply out.now op else t)

abbrev WalletProg := Prog WalletOp WalletOp.Resp

------------------------------------------------------------
-- Writers
------------------------------------------------------------

/- What a route answers. -/
inductive ApiReply where
  | ok (id : String) (status : WalletStatus) : ApiReply
  | row (row : WalletConfigRow) : ApiReply
  | error (code : Nat) (message : String) : ApiReply
deriving DecidableEq

/- The routes that pause, resume and halt, but for what they say. -/
def statusRoute
    (id : String)
    (st : WalletStatus)
    (failed : String) : WalletProg ApiReply :=
  .act (.setStatus id st) fun
    | .ok _ => .done (.ok id st)
    | .error _ => .done (.error 500 failed)

/- POST /wallets/:id/pause -/
def pauseRoute (id : String) : WalletProg ApiReply :=
  statusRoute id .paused "Failed to pause wallet"

/- POST /wallets/:id/resume -/
def resumeRoute (id : String) : WalletProg ApiReply :=
  statusRoute id .enabled "Failed to resume wallet"

/- POST /wallets/:id/halt -/
def haltRoute (id : String) (confirm : Bool) : WalletProg ApiReply :=
  if confirm then
    statusRoute id .halted "Failed to halt wallet"
  else
    .done
      (.error 400
        "Halting a wallet requires \x7b confirm: true \x7d in the request body")

/- PUT /wallets/:id/config -/
def putConfigRoute
    (id : String)
    (body : ConfigBody) : WalletProg ApiReply :=
  match body.configUpdate with
  | .error message => .done (.error 400 message)
  | .ok update =>
      .act (.putConfig id update) fun
        | .ok (some row) => .done (.row row)
        | .ok none => .done (.error 404 "Wallet config not found")
        | .error _ => .done (.error 500 "Failed to update wallet config")

/- Persist an auto-pause; failed statements are only logged. -/
def pauseWalletRow
    (id : String)
    (rejectCount : UInt32) : WalletProg Unit :=
  .act (.updateRegistryStatus id .paused) fun _ =>
    .act (.updateConfigStatus id .paused) fun _ =>
      .act (.upsertWalletAlert id rejectCount.toInt32) fun _ =>
        .done ()

/- Halt a wallet; failed statements are only logged. -/
def haltWalletRow (id : String) : WalletProg Unit :=
  .act (.updateRegistryStatus id .halted) fun _ =>
    .act (.updateConfigStatus id .halted) fun _ =>
      .done ()

/- A writer at work, of the API or of the engine. -/
inductive WalletTask where
  | pause (id : String) : WalletTask
  | resume (id : String) : WalletTask
  | halt (id : String) (confirm : Bool) : WalletTask
  | putConfig (id : String) (body : ConfigBody) : WalletTask
  | pauseWallet (id : String) (rejectCount : UInt32) : WalletTask
  | haltWallet (id : String) : WalletTask
deriving DecidableEq

/- The code of a writer; the engine's return nothing. -/
def WalletTask.body : WalletTask → WalletProg (Option ApiReply)
  | pause id => do
      let r ← pauseRoute id
      pure (some r)
  | resume id => do
      let r ← resumeRoute id
      pure (some r)
  | halt id confirm => do
      let r ← haltRoute id confirm
      pure (some r)
  | putConfig id body => do
      let r ← putConfigRoute id body
      pure (some r)
  | pauseWallet id rejectCount => do
      pauseWalletRow id rejectCount
      pure none
  | haltWallet id => do
      haltWalletRow id
      pure none

/- The tables with all their writers; a writer is started from outside. -/
def walletMachine :
    Machine WalletOp WalletOp.Resp WalletOutcome WalletTask
      WalletTables WalletTask (Option ApiReply) where
  exec := WalletTables.exec
  ext := fun _ t => some t
  body := WalletTask.body
  opRoots := fun _ => []
  extRoots := fun task => [task]
  kills := fun _ _ _ => false

abbrev WalletEvent :=
  Event WalletOp WalletOp.Resp WalletOutcome WalletTask

abbrev WalletCond :=
  Machine.StepCond WalletOp WalletOp.Resp WalletOutcome WalletTask
    WalletTables

abbrev WalletSystem :=
  Interleaving.Config WalletOp WalletOp.Resp WalletTables WalletTask
    (Option ApiReply)

end Pumpy
