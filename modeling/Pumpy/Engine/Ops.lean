import Pumpy.Engine.Types
import Pumpy.Interleaving.Protocol

/-
  This file defines the operations the engine's tasks execute
  one at a time: atomics of the decision engine, SQL
  statements, sections under a lock, channel sends, metrics,
  requests to the chain, and the runtime.  A section that
  awaits nothing while it holds its lock is one operation; a
  write guard held across an await is taken and released by
  operations of its own.

  Key definitions include:
    * `Op`
    * `Op.Resp`
    * `Op.isAwait`
    * `OmProg`
-/

------------------------------------------------------------
-- Operations
------------------------------------------------------------

namespace Pumpy

open Interleaving

inductive WalletStatus where
  | enabled | paused | halted
deriving DecidableEq, Repr

/- One record of the decision engine's audit log. -/
structure AuditRecord where
  decision : Decision
  walletId : String
  orderId : OrderId
  configVersion : String
deriving DecidableEq

/-
  Atomics of the decision engine, and its audit log.  The load
  in `evaluate` and the one in `is_auto_paused` are told apart.
-/
inductive EngineOp where
  | loadAutoPaused : EngineOp
  | isAutoPaused : EngineOp
  | storeAutoPaused (b : Bool) : EngineOp
  | swapAutoPaused (b : Bool) : EngineOp
  | storeNeedsDbPause (b : Bool) : EngineOp
  | swapNeedsDbPause (b : Bool) : EngineOp
  | loadConsecutiveRejects : EngineOp
  | storeConsecutiveRejects (n : UInt32) : EngineOp
  | fetchAddConsecutiveRejects (n : UInt32) : EngineOp
  | emit (rec : AuditRecord) : EngineOp
deriving DecidableEq

/- SQL statements. -/
inductive DbOp where
  | getWalletStatus : DbOp
  | updateRegistryStatus (st : WalletStatus) : DbOp
  | updateConfigStatus (st : WalletStatus) : DbOp
  | upsertWalletAlert (count : Int32) : DbOp
  | insertOrder (o : Order) : DbOp
  | updateOrder (o : Order) : DbOp
  | insertTrade (o : Order) : DbOp
  | getConfigValue (key : String) : DbOp
deriving DecidableEq

/- Sections under the locks of the three order maps. -/
inductive MapOp where
  | activeInsert (o : Order) : MapOp
  | activeValues : MapOp
  | activeLock : MapOp
  | activeRemove (id : OrderId) : MapOp
  | activeUnlock : MapOp
  | pendingPush (max : Nat) (o : Order) : MapOp
  | pendingRetain (id : OrderId) : MapOp
  | historyInsert (o : Order) : MapOp
deriving DecidableEq

/- Sends on the order channel and on the event broadcast. -/
inductive ChanOp where
  | orderSend (o : Order) : ChanOp
  | eventSend (ev : OrderEvent) : ChanOp
deriving DecidableEq

inductive Gauge where
  | pendingOrders | activeOrders
deriving DecidableEq, Repr

inductive Counter where
  | ordersSubmitted | ordersExecuted | ordersFailed
  | ordersCancelled | ordersRejected | jitoBundlesLanded
deriving DecidableEq, Repr

inductive MetricOp where
  | inc (g : Gauge) : MetricOp
  | dec (g : Gauge) : MetricOp
  | count (c : Counter) : MetricOp
deriving DecidableEq

/- Requests to the chain: RPC nodes and the bundle endpoint. -/
inductive ChainOp where
  | analyzeSandwichRisk (mint : String) (accounts : List String) :
      ChainOp
  | getBondingCurveParams (mint : Pubkey) : ChainOp
  | getClient : ChainOp
  | getLatestBlockhash : ChainOp
  | sendAndConfirmTransaction (tx : Transaction) : ChainOp
  | chooseTipAccount : ChainOp
  | simulateTransaction (tx : Transaction) : ChainOp
  | sendBundle (tx : Transaction) : ChainOp
  | getBundleStatus (bundleId : String) : ChainOp
deriving DecidableEq

/- The runtime: identifiers, clocks, timers, spawning. -/
inductive SysOp where
  | newUuid : SysOp
  | utcNow : SysOp
  | sleep (d : Duration) : SysOp
  | timer : SysOp
  | spawnPauseWallet (reason : String) (rejectCount : UInt32) :
      SysOp
deriving DecidableEq

inductive Op where
  | engine (op : EngineOp) : Op
  | db (op : DbOp) : Op
  | map (op : MapOp) : Op
  | chan (op : ChanOp) : Op
  | metric (op : MetricOp) : Op
  | chain (op : ChainOp) : Op
  | sys (op : SysOp) : Op
deriving DecidableEq

------------------------------------------------------------
-- Responses
------------------------------------------------------------

abbrev EngineOp.Resp : EngineOp → Type
  | loadAutoPaused => Bool
  | isAutoPaused => Bool
  | storeAutoPaused _ => Unit
  | swapAutoPaused _ => Bool
  | storeNeedsDbPause _ => Unit
  | swapNeedsDbPause _ => Bool
  | loadConsecutiveRejects => UInt32
  | storeConsecutiveRejects _ => Unit
  | fetchAddConsecutiveRejects _ => UInt32
  | emit _ => Unit

abbrev DbOp.Resp : DbOp → Type
  | getWalletStatus => Option WalletStatus
  | updateRegistryStatus _ => Except DbError Unit
  | updateConfigStatus _ => Except DbError Unit
  | upsertWalletAlert _ => Except DbError Unit
  | insertOrder _ => Except DbError Unit
  | updateOrder _ => Except DbError Unit
  | insertTrade _ => Except DbError Unit
  | getConfigValue _ => Option String

abbrev MapOp.Resp : MapOp → Type
  | activeInsert _ => Unit
  | activeValues => List Order
  | activeLock => Unit
  | activeRemove _ => Option Order
  | activeUnlock => Unit
  | pendingPush _ _ => Bool
  | pendingRetain _ => Bool
  | historyInsert _ => Unit

abbrev ChanOp.Resp : ChanOp → Type
  | orderSend _ => Bool
  | eventSend _ => Unit

abbrev ChainOp.Resp : ChainOp → Type
  | analyzeSandwichRisk _ _ => UInt32
  | getBondingCurveParams _ => Except String BondingCurveParams
  | getClient => Except String Unit
  | getLatestBlockhash => Except String Hash
  | sendAndConfirmTransaction _ => Except String String
  | chooseTipAccount => Option Pubkey
  | simulateTransaction _ => Except String Unit
  | sendBundle _ => Except String String
  | getBundleStatus _ => Except String String

abbrev SysOp.Resp : SysOp → Type
  | newUuid => OrderId
  | utcNow => Timestamp
  | sleep _ => Unit
  | timer => Bool
  | spawnPauseWallet _ _ => Unit

abbrev Op.Resp : Op → Type
  | engine op => op.Resp
  | db op => op.Resp
  | map op => op.Resp
  | chan op => op.Resp
  | metric _ => Unit
  | chain op => op.Resp
  | sys op => op.Resp

theorem Op.nonempty_resp
    (op : Op) :
    Nonempty op.Resp := by
  rcases op with op | op | op | op | op | op | op <;> cases op <;>
    first
    | exact ⟨()⟩
    | exact ⟨true⟩
    | exact ⟨none⟩
    | exact ⟨.error ""⟩
    | exact ⟨.error ⟨""⟩⟩
    | exact ⟨([] : List Order)⟩
    | exact ⟨(0 : UInt32)⟩
    | exact ⟨(0 : Nat)⟩
    | exact ⟨""⟩

/-
  The operations a task may be suspended on, so that a
  deadline around it can fire there.
-/
def Op.isAwait : Op → Bool
  | db _ => true
  | chain .chooseTipAccount => false
  | chain _ => true
  | sys (.sleep _) => true
  | _ => false

/- Programs of the order manager. -/
abbrev OmProg := Prog Op Op.Resp

/- The calls of one task. -/
abbrev OmCall := Prog.Call Op Op.Resp

------------------------------------------------------------
-- Operations as Programs
------------------------------------------------------------

namespace Do

abbrev loadAutoPaused : OmProg Bool :=
  .act (.engine .loadAutoPaused) .done

abbrev isAutoPaused : OmProg Bool :=
  .act (.engine .isAutoPaused) .done

abbrev storeAutoPaused (b : Bool) : OmProg Unit :=
  .act (.engine (.storeAutoPaused b)) .done

abbrev swapAutoPaused (b : Bool) : OmProg Bool :=
  .act (.engine (.swapAutoPaused b)) .done

abbrev storeNeedsDbPause (b : Bool) : OmProg Unit :=
  .act (.engine (.storeNeedsDbPause b)) .done

abbrev swapNeedsDbPause (b : Bool) : OmProg Bool :=
  .act (.engine (.swapNeedsDbPause b)) .done

abbrev loadConsecutiveRejects : OmProg UInt32 :=
  .act (.engine .loadConsecutiveRejects) .done

abbrev storeConsecutiveRejects (n : UInt32) : OmProg Unit :=
  .act (.engine (.storeConsecutiveRejects n)) .done

abbrev fetchAddConsecutiveRejects (n : UInt32) : OmProg UInt32 :=
  .act (.engine (.fetchAddConsecutiveRejects n)) .done

abbrev emit (rec : AuditRecord) : OmProg Unit :=
  .act (.engine (.emit rec)) .done

abbrev getWalletStatus : OmProg (Option WalletStatus) :=
  .act (.db .getWalletStatus) .done

abbrev updateRegistryStatus
    (st : WalletStatus) : OmProg (Except DbError Unit) :=
  .act (.db (.updateRegistryStatus st)) .done

abbrev updateConfigStatus
    (st : WalletStatus) : OmProg (Except DbError Unit) :=
  .act (.db (.updateConfigStatus st)) .done

abbrev upsertWalletAlert
    (count : Int32) : OmProg (Except DbError Unit) :=
  .act (.db (.upsertWalletAlert count)) .done

abbrev insertOrder (o : Order) : OmProg (Except DbError Unit) :=
  .act (.db (.insertOrder o)) .done

abbrev updateOrder (o : Order) : OmProg (Except DbError Unit) :=
  .act (.db (.updateOrder o)) .done

abbrev insertTrade (o : Order) : OmProg (Except DbError Unit) :=
  .act (.db (.insertTrade o)) .done

abbrev getConfigValue (key : String) : OmProg (Option String) :=
  .act (.db (.getConfigValue key)) .done

abbrev activeInsert (o : Order) : OmProg Unit :=
  .act (.map (.activeInsert o)) .done

abbrev activeValues : OmProg (List Order) :=
  .act (.map .activeValues) .done

abbrev activeLock : OmProg Unit :=
  .act (.map .activeLock) .done

abbrev activeRemove (id : OrderId) : OmProg (Option Order) :=
  .act (.map (.activeRemove id)) .done

abbrev activeUnlock : OmProg Unit :=
  .act (.map .activeUnlock) .done

abbrev pendingPush (max : Nat) (o : Order) : OmProg Bool :=
  .act (.map (.pendingPush max o)) .done

abbrev pendingRetain (id : OrderId) : OmProg Bool :=
  .act (.map (.pendingRetain id)) .done

abbrev historyInsert (o : Order) : OmProg Unit :=
  .act (.map (.historyInsert o)) .done

abbrev orderSend (o : Order) : OmProg Bool :=
  .act (.chan (.orderSend o)) .done

abbrev eventSend (ev : OrderEvent) : OmProg Unit :=
  .act (.chan (.eventSend ev)) .done

abbrev inc (g : Gauge) : OmProg Unit :=
  .act (.metric (.inc g)) .done

abbrev dec (g : Gauge) : OmProg Unit :=
  .act (.metric (.dec g)) .done

abbrev count (c : Counter) : OmProg Unit :=
  .act (.metric (.count c)) .done

abbrev analyzeSandwichRisk
    (mint : String)
    (accounts : List String) : OmProg UInt32 :=
  .act (.chain (.analyzeSandwichRisk mint accounts)) .done

abbrev getBondingCurveParams
    (mint : Pubkey) : OmProg (Except String BondingCurveParams) :=
  .act (.chain (.getBondingCurveParams mint)) .done

abbrev getClient : OmProg (Except String Unit) :=
  .act (.chain .getClient) .done

abbrev getLatestBlockhash : OmProg (Except String Hash) :=
  .act (.chain .getLatestBlockhash) .done

abbrev sendAndConfirmTransaction
    (tx : Transaction) : OmProg (Except String String) :=
  .act (.chain (.sendAndConfirmTransaction tx)) .done

abbrev chooseTipAccount : OmProg (Option Pubkey) :=
  .act (.chain .chooseTipAccount) .done

abbrev simulateTransaction
    (tx : Transaction) : OmProg (Except String Unit) :=
  .act (.chain (.simulateTransaction tx)) .done

abbrev sendBundle
    (tx : Transaction) : OmProg (Except String String) :=
  .act (.chain (.sendBundle tx)) .done

abbrev getBundleStatus
    (bundleId : String) : OmProg (Except String String) :=
  .act (.chain (.getBundleStatus bundleId)) .done

abbrev newUuid : OmProg OrderId :=
  .act (.sys .newUuid) .done

abbrev utcNow : OmProg Timestamp :=
  .act (.sys .utcNow) .done

abbrev sleep (d : Duration) : OmProg Unit :=
  .act (.sys (.sleep d)) .done

abbrev spawnPauseWallet
    (reason : String)
    (rejectCount : UInt32) : OmProg Unit :=
  .act (.sys (.spawnPauseWallet reason rejectCount)) .done
end Do

end Pumpy
