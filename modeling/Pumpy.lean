import Pumpy.Engine.Lifecycle
import Pumpy.Engine.Conformance
import Pumpy.Engine.Effects
import Pumpy.Engine.Ownership
import Pumpy.Engine.Approval
import Pumpy.Engine.Landing
import Pumpy.Engine.OperatorPause
import Pumpy.Engine.Cancellation
import Pumpy.Engine.Exposure
import Pumpy.Engine.PauseLatch
import Pumpy.Engine.Bounds
import Pumpy.Engine.PositionLimit
import Pumpy.Engine.LatchSpec
import Pumpy.Supervisor.Backoff
import Pumpy.Wallet.Halted
import Pumpy.Interleaving.Calls
import Pumpy.Engine.Execution
import Pumpy.Engine.Simulation
import Pumpy.Engine.Settlement
import Pumpy.Engine.Worker
import Pumpy.Grpc.Reservation
import Pumpy.Grpc.Handling
import Pumpy.Grpc.Acknowledgement
import Pumpy.Engine.Quotes
import Pumpy.Engine.Rounding
import Pumpy.Engine.SlippageCap
import Pumpy.Api.Base58
import Pumpy.Settings.InForce
import Pumpy.Api.StreamLife
import Pumpy.Api.Relay
import Pumpy.Grpc.Retries
import Pumpy.Api.OneOrder
import Pumpy.Engine.AccountData
import Pumpy.Settings.SaveConfig
import Pumpy.Grpc.Breaker
import Pumpy.Grpc.HalfOpen
import Pumpy.Engine.NoTrace
import Pumpy.Engine.PendingQueue
import Pumpy.Numeric.JsNumber
import Pumpy.Api.RpcGuard
import Pumpy.Api.Readiness
import Pumpy.Numeric.Json
import Pumpy.Settings.WalletKey
import Pumpy.Settings.Secrecy
import Pumpy.Engine.Bookkeeping
import Pumpy.Engine.Stations
import Pumpy.Engine.StatusReads
import Pumpy.Engine.Gauges
import Pumpy.Engine.Tally
import Pumpy.Numeric.Drawdown
import Pumpy.Strategy.Backtest
import Pumpy.Strategy.Equity
import Pumpy.Strategy.Momentum
import Pumpy.Strategy.Checkpoint
import Pumpy.Strategy.Snapshots
import Pumpy.Strategy.Presets
import Pumpy.Rpc.Manager
import Pumpy.Rpc.Primary
import Pumpy.Websocket.Monitor
import Pumpy.Websocket.Sniper
import Pumpy.Supervisor.Budget
import Pumpy.Settings.KeypairFile
import Pumpy.Supervisor.Custody
import Pumpy.Engine.Retry
import Pumpy.Engine.RetryBound
import Pumpy.Engine.FullPass
import Pumpy.Interleaving.Oracle
import Pumpy.Engine.TwoPaths
import Pumpy.Engine.Rivals
import Pumpy.Numeric.Window
import Pumpy.Strategy.PriceHistory
import Pumpy.Grpc.SignalCounts
import Pumpy.Mev.Mempool
import Pumpy.Mev.Sandwich
import Pumpy.Dashboard.AdminKey
import Pumpy.Dashboard.LiveFeed
import Pumpy.Engine.Ledger
import Pumpy.Dashboard.Outcomes
import Pumpy.Grpc.OrderStream
import Pumpy.Engine.WorkerPool
import Pumpy.Rpc.Health
