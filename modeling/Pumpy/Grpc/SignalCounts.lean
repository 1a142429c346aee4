import Pumpy.Grpc.Retries
import Pumpy.Interleaving.Transition

/-
  The orders that the strategy service counts
  (python-strategy/strategy_engine.py): `_execute_signal` adds
  to one of two counters, where the client of the engine lets it
  come that far.

  Key definitions include:
    * `StrategyEngine.executeSignal`
    * `signalRuns`
    * `Accounted`
    * `Settles`

  The main result is `accounted_iff`: every signal is counted
  once exactly in the runs in which every signal settles.
-/

------------------------------------------------------------
-- The Counters
------------------------------------------------------------

namespace Pumpy

namespace SignalCounts

open Interleaving

/-
  The client and the counters; those of Prometheus are by the
  name of the strategy.
-/
structure StrategyEngine where
  client : BotGrpcClient
  ordersSubmittedCount : ℕ
  ordersFailedCount : ℕ
  ordersSubmitted : String → ℕ
  ordersFailed : String → ℕ

namespace StrategyEngine

/- The service starts, with a client that has been connected or not. -/
def new (client : BotGrpcClient) : StrategyEngine where
  client := client
  ordersSubmittedCount := 0
  ordersFailedCount := 0
  ordersSubmitted := fun _ => 0
  ordersFailed := fun _ => 0

/- `labels(strategy=name).inc()`. -/
def inc (counter : String → ℕ) (name : String) : String → ℕ :=
  Function.update counter name (counter name + 1)

def countSubmitted
    (engine : StrategyEngine)
    (name : String) : StrategyEngine :=
  { engine with
    ordersSubmitted := inc engine.ordersSubmitted name
    ordersSubmittedCount := engine.ordersSubmittedCount + 1 }

def countFailed
    (engine : StrategyEngine)
    (name : String) : StrategyEngine :=
  { engine with
    ordersFailed := inc engine.ordersFailed name
    ordersFailedCount := engine.ordersFailedCount + 1 }

end StrategyEngine

/-
  A signal, and what its execution meets: what has happened to
  the client since the last one, the clock, the identifiers
  drawn, and the surroundings of the attempts.
-/
structure Occasion where
  signal : TradeSignal
  before : List ClientEvent
  askedAt : Seconds
  drawnCoid : UuidText
  drawnTid : UuidText
  arounds : List Surroundings

/- `_execute_signal` returns, or an exception leaves it. -/
inductive SignalEnd where
  | returned : SignalEnd
  | raised : SignalEnd
deriving DecidableEq, Repr

namespace StrategyEngine

/- The client, asked whether its circuit is open. -/
def askOpen
    (engine : StrategyEngine)
    (o : Occasion) : Bool × BotGrpcClient :=
  let client := engine.client.meanwhile o.before
  let (isOpen, breaker) := client.breaker.isOpen o.askedAt
  (isOpen, { client with breaker := breaker })

/- What the end of a call of the client is counted as. -/
def count
    (engine : StrategyEngine)
    (name : String) : CallEnd → StrategyEngine × SignalEnd
  | .returned result =>
      if result.success then
        (engine.countSubmitted name, .returned)
      else
        (engine.countFailed name, .returned)
  -- `RetryError`, or the task has been cancelled.
  | .retryError => (engine, .raised)
  | .cancelled => (engine, .raised)

/- `_execute_signal(signal)`. -/
def executeSignal
    (engine : StrategyEngine)
    (o : Occasion) : StrategyEngine × SignalEnd :=
  let (isOpen, client) := engine.askOpen o
  let engine := { engine with client := client }
  if isOpen then
    (engine.countFailed o.signal.strategyName, .returned)
  else
    match Pumpy.executeSignal o.signal o.drawnCoid o.drawnTid with
    -- `int` of an amount that is not finite.
    | none => (engine, .raised)
    | some args =>
        let call := client.submitOrder args o.arounds
        { engine with client := call.client }.count
          o.signal.strategyName call.ending

end StrategyEngine

/- Signal after signal; `_run_strategies` logs what is raised. -/
def signalRuns : Transition Occasion StrategyEngine where
  step engine o := some (engine.executeSignal o).1

------------------------------------------------------------
-- Attempts That Conclude
------------------------------------------------------------

/-
  An attempt finds no connection, or an open breaker, or its
  request can be built and is answered.
-/
def Concludes
    (args : SubmitOrderArgs)
    (client : BotGrpcClient)
    (around : Surroundings) : Prop :=
  let client := client.meanwhile around.before
  client.connected = false ∨
    (client.breaker.isOpen around.startedAt).1 = true ∨
      args.Encodable ∧ ∃ response, around.outcome = .ok response

/- One of the first `n` attempts does. -/
def ConcludesWithin
    (args : SubmitOrderArgs) :
    ℕ → List Surroundings → BotGrpcClient → Prop
  | 0, _, _ => False
  | _ + 1, [], _ => False
  | n + 1, around :: rest, client =>
      Concludes args client around ∨
        ConcludesWithin args n rest (client.attempt args around).2.2

section Attempts

variable {args : SubmitOrderArgs} {client : BotGrpcClient}
variable {around : Surroundings}

theorem settle_isSome
    (req : SubmitOrderRequest)
    (now : Seconds)
    (outcome : Except BotGrpcClient.CallError SubmitOrderResponse) :
    (client.settle req now outcome).1.isSome ↔
      ∃ response, outcome = .ok response := by
  cases outcome with
  | ok response => simp [BotGrpcClient.settle]
  | error e => cases e <;> simp [BotGrpcClient.settle]

/- An attempt has a result exactly if it concludes. -/
theorem attempt_isSome :
    (client.attempt args around).2.1.isSome ↔
      Concludes args client around := by
  unfold BotGrpcClient.attempt BotGrpcClient.prepare Concludes
  dsimp only
  cases hConnected : (client.meanwhile around.before).connected with
  | false => simp
  | true =>
      cases hOpen :
          ((client.meanwhile around.before).breaker.isOpen
            around.startedAt).1 with
      | true => simp
      | false =>
          rw [← request_isSome
            (orElseDrawn args.clientOrderId around.drawnCoid)
            (orElseDrawn args.traceId around.drawnTid)]
          cases args.request
              (orElseDrawn args.clientOrderId around.drawnCoid)
              (orElseDrawn args.traceId around.drawnTid) with
          | none => simp
          | some req => simp [settle_isSome]

/- A call returns exactly if one of its attempts concludes. -/
theorem attempts_returned
    (n : ℕ)
    (arounds : List Surroundings)
    (client : BotGrpcClient) :
    (∃ result,
        (BotGrpcClient.attempts args n arounds client).ending =
          .returned result) ↔
      ConcludesWithin args n arounds client := by
  induction n generalizing arounds client with
  | zero => simp [BotGrpcClient.attempts, ConcludesWithin]
  | succ n ih =>
      cases arounds with
      | nil => simp [BotGrpcClient.attempts, ConcludesWithin]
      | cons around rest =>
          have hConcludes := @attempt_isSome args client around
          rw [BotGrpcClient.attempts, ConcludesWithin, ← hConcludes]
          rcases client.attempt args around with ⟨req, result, client'⟩
          cases result with
          | none => simpa using ih rest client'
          | some result => simp

end Attempts

------------------------------------------------------------
-- One Signal
------------------------------------------------------------

/-
  The breaker is open, or the amount is a number and the call of
  the client returns within its three attempts.
-/
def Settles (engine : StrategyEngine) (o : Occasion) : Prop :=
  (engine.askOpen o).1 = true ∨
    ∃ args,
      executeSignal o.signal o.drawnCoid o.drawnTid = some args ∧
        ConcludesWithin args 3 o.arounds (engine.askOpen o).2

/- One of the two counters goes up by one, the other one stays. -/
def CountsOne (engine engine' : StrategyEngine) : Prop :=
  (engine'.ordersSubmittedCount = engine.ordersSubmittedCount + 1 ∧
      engine'.ordersFailedCount = engine.ordersFailedCount) ∨
    (engine'.ordersSubmittedCount = engine.ordersSubmittedCount ∧
      engine'.ordersFailedCount = engine.ordersFailedCount + 1)

/- Neither counter moves. -/
def CountsNone (engine engine' : StrategyEngine) : Prop :=
  engine'.ordersSubmittedCount = engine.ordersSubmittedCount ∧
    engine'.ordersFailedCount = engine.ordersFailedCount

section Signals

variable {engine engine' : StrategyEngine} {o : Occasion}

theorem not_countsOne_of_countsNone
    (hNone : CountsNone engine engine') :
    ¬CountsOne engine engine' := by
  rcases hNone with ⟨hSubmitted, hFailed⟩
  unfold CountsOne
  omega

/- A call that returns is counted, and no other one is. -/
theorem count_cases
    (name : String)
    (ending : CallEnd) :
    ((∃ result, ending = .returned result) ∧
        CountsOne engine (engine.count name ending).1) ∨
      ((¬∃ result, ending = .returned result) ∧
        CountsNone engine (engine.count name ending).1) := by
  cases ending with
  | returned result =>
      refine .inl ⟨⟨result, rfl⟩, ?_⟩
      dsimp only [StrategyEngine.count]
      cases result.success with
      | true => exact .inl ⟨rfl, rfl⟩
      | false => exact .inr ⟨rfl, rfl⟩
  | retryError => exact .inr ⟨nofun, rfl, rfl⟩
  | cancelled => exact .inr ⟨nofun, rfl, rfl⟩

/- A signal that settles is counted, and no other one is. -/
theorem executeSignal_cases :
    (Settles engine o ∧ CountsOne engine (engine.executeSignal o).1) ∨
      (¬Settles engine o ∧
        CountsNone engine (engine.executeSignal o).1) := by
  unfold StrategyEngine.executeSignal Settles
  dsimp only
  cases hOpen : (engine.askOpen o).1 with
  | true => exact .inl ⟨.inl rfl, .inr ⟨rfl, rfl⟩⟩
  | false =>
      cases hArgs :
          executeSignal o.signal o.drawnCoid o.drawnTid with
      | none => exact .inr ⟨by simp, rfl, rfl⟩
      | some args =>
          have hConcludes :=
            @attempts_returned args 3 o.arounds (engine.askOpen o).2
          simp only [Bool.false_eq_true, false_or, Option.some.injEq,
            exists_eq_left', ← hConcludes]
          exact count_cases _ _

theorem countsOne_executeSignal_iff :
    CountsOne engine (engine.executeSignal o).1 ↔ Settles engine o := by
  rcases @executeSignal_cases engine o with
    ⟨hSettles, hOne⟩ | ⟨hNot, hNone⟩
  · exact iff_of_true hOne hSettles
  · exact iff_of_false (not_countsOne_of_countsNone hNone) hNot

end Signals

------------------------------------------------------------
-- Runs
------------------------------------------------------------

/-
  Every signal of the run moves one of the counters by one; and
  together they say how many signals there were.
-/
structure Accounted
    (client : BotGrpcClient)
    (os : List Occasion) : Prop where
  each :
    signalRuns.Meets
      (fun engine o => CountsOne engine (engine.executeSignal o).1)
      (.new client) os
  total :
    ∀ pre post engine,
      os = pre ++ post →
        signalRuns.exec (.new client) pre = some engine →
          engine.ordersSubmittedCount + engine.ordersFailedCount =
            pre.length

theorem total_of_each
    {client : BotGrpcClient}
    {os : List Occasion}
    {engine : StrategyEngine}
    (hEach :
      signalRuns.Meets
        (fun engine o => CountsOne engine (engine.executeSignal o).1)
        (.new client) os)
    (hExec : signalRuns.exec (.new client) os = some engine) :
    engine.ordersSubmittedCount + engine.ordersFailedCount =
      os.length := by
  refine Transition.exec_invariant
    (P := fun os engine =>
      engine.ordersSubmittedCount + engine.ordersFailedCount =
        os.length)
    rfl ?_ hEach hExec
  rintro os engine o _ _ hBefore hOne ⟨⟩
  rw [List.length_append, List.length_singleton]
  rcases hOne with ⟨hSubmitted, hFailed⟩ | ⟨hSubmitted, hFailed⟩ <;> omega

/-
  The counters account for every signal exactly in the runs in
  which every signal settles.
-/
theorem accounted_iff (client : BotGrpcClient) (os : List Occasion) :
    Accounted client os ↔ signalRuns.Meets Settles (.new client) os := by
  constructor
  · intro hAccounted pre o post engine hSplit hExec
    exact countsOne_executeSignal_iff.mp
      (hAccounted.each pre o post engine hSplit hExec)
  · intro hMeets
    have hEach :
        signalRuns.Meets
          (fun engine o => CountsOne engine (engine.executeSignal o).1)
          (.new client) os := by
      intro pre o post engine hSplit hExec
      exact countsOne_executeSignal_iff.mpr
        (hMeets pre o post engine hSplit hExec)
    refine ⟨hEach, ?_⟩
    rintro pre post engine rfl hExec
    exact total_of_each hEach.earlier hExec

/- The engine refuses the credentials of an attempt. -/
def refused (now : Seconds) : Surroundings where
  before := []
  startedAt := now
  drawnCoid := drawnFirst
  drawnTid := drawnSecond
  during := []
  outcome := .error (.rpc (some .unauthenticated))
  endedAt := now

/- A signal to buy for a tenth of a SOL, whose attempts all fail. -/
def refusedThrice : Occasion where
  signal :=
    { tokenMint := "So11111111111111111111111111111111111111112"
      side := "BUY"
      amountSol := .fin (1 / 10)
      strategyName := "momentum" }
  before := []
  askedAt := 0
  drawnCoid := drawnFirst
  drawnTid := drawnSecond
  arounds := [refused 0, refused 1, refused 3]

/- The order has failed, and neither counter says so. -/
theorem not_accounted_refusedThrice :
    ((signalRuns.exec (.new sampleClient) [refusedThrice]).map
        fun engine =>
          (engine.ordersSubmittedCount, engine.ordersFailedCount)) =
      some (0, 0) ∧
      ¬Accounted sampleClient [refusedThrice] := by
  refine ⟨by decide +kernel, fun hAccounted => ?_⟩
  have hOne :=
    hAccounted.each [] refusedThrice [] (.new sampleClient) rfl rfl
  revert hOne
  unfold CountsOne
  decide +kernel

end SignalCounts

end Pumpy
