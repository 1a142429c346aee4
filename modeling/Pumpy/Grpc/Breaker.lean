import Mathlib.Data.List.TakeWhile
import Pumpy.Grpc.OrderClient
import Pumpy.Interleaving.Transition

/-
  Runs of the strategy service's client: calls of all its
  methods, in any order, with the RPCs that are out at the same
  time, and what they do to the circuit breaker.

  Failures are recorded by all methods, successes by
  `submit_order` alone, and a breaker that is half open lets
  every caller pass.

  Key definitions include:
    * `ClientRun`
    * `clientRuns`
    * `outcomes`
    * `OpensOnConsecutive`
    * `Unbroken`

  The main results are `counted_of_exec`, which says what the
  breaker counts, and `opensOnConsecutive_iff`.
-/

namespace Pumpy

open Interleaving

------------------------------------------------------------
-- The client with its calls
------------------------------------------------------------

/- The methods of the stub. -/
inductive RpcMethod where
  | submitOrder | cancelOrder | getOrderStatus
  | getTokenInfo | getPortfolioSummary | streamOrders
deriving DecidableEq, Repr

/- An RPC that has been started. -/
structure Rpc where
  number : Nat
  method : RpcMethod
deriving DecidableEq, Repr

/-
  How an RPC ends: with a response (a stream: with its last
  one), with a `grpc.RpcError`, or with another exception.
-/
inductive RpcEnd where
  | response : RpcEnd
  | rpcError (code : Option RpcCode) : RpcEnd
  | other : RpcEnd
deriving DecidableEq, Repr

/- What the code behind an RPC does with the breaker at its end. -/
def CircuitBreaker.rpcEnded
    (cb : CircuitBreaker)
    (method : RpcMethod)
    (now : Seconds) : RpcEnd → CircuitBreaker
  | .response =>
      if method = .submitOrder then cb.recordSuccess else cb
  | .rpcError code =>
      if code.any (· ∈ fatalGrpcCodes) then
        cb.recordFailure now
      else
        cb
  | .other => cb

/- What it does with the client. -/
def BotGrpcClient.rpcEnded
    (client : BotGrpcClient)
    (method : RpcMethod)
    (now : Seconds) : RpcEnd → BotGrpcClient
  | .response =>
      if method = .submitOrder then
        { client with breaker := client.breaker.recordSuccess }
      else
        client
  | .rpcError code => client.onRpcError code now
  | .other => client

/- The client, the RPCs that are out, how many have been started. -/
structure ClientRun where
  client : BotGrpcClient
  inFlight : List Rpc
  started : Nat
deriving DecidableEq

/-
  What may happen: the connection is probed or closed, somebody
  reads `circuit_open`, `submit_order` or another method is
  called and runs up to its RPC, an RPC ends.
-/
inductive ClientStep where
  | probed (ready : Bool) : ClientStep
  | disconnected : ClientStep
  | askedOpen (now : Seconds) : ClientStep
  | submit
      (args : SubmitOrderArgs)
      (now : Seconds)
      (drawnCoid drawnTid : UuidText) : ClientStep
  | call (method : RpcMethod) : ClientStep
  | ended (rpc : Rpc) (how : RpcEnd) (now : Seconds) : ClientStep

namespace ClientRun

/- The client as it is made. -/
def boot
    (failureThreshold : ℤ)
    (recoveryInterval : Seconds) : ClientRun where
  client :=
    { connected := false
      breaker := ⟨failureThreshold, recoveryInterval, 0, .closed⟩ }
  inFlight := []
  started := 0

/- The RPC that is started next. -/
def next (run : ClientRun) (method : RpcMethod) : Rpc :=
  ⟨run.started, method⟩

/- An RPC is started. -/
def start (run : ClientRun) (method : RpcMethod) : ClientRun :=
  { run with
    inFlight := run.inFlight ++ [run.next method]
    started := run.started + 1 }

/- Something happens to the client apart from the calls. -/
def meets (run : ClientRun) (event : ClientEvent) : ClientRun :=
  { run with client := event.apply run.client }

/- A call of `submit_order`, up to its RPC. -/
def submit
    (run : ClientRun)
    (args : SubmitOrderArgs)
    (now : Seconds)
    (drawnCoid drawnTid : UuidText) : ClientRun :=
  match run.client.prepare args now drawnCoid drawnTid with
  | (.sent _, client) =>
      { run with client := client }.start .submitOrder
  | (_, client) => { run with client := client }

/- A step; the other methods only need a connection. -/
def step (run : ClientRun) : ClientStep → Option ClientRun
  | .probed ready => some (run.meets (.probed ready))
  | .disconnected => some (run.meets .disconnected)
  | .askedOpen now => some (run.meets (.askedOpen now))
  | .submit args now drawnCoid drawnTid =>
      some (run.submit args now drawnCoid drawnTid)
  | .call method =>
      if method = .submitOrder then
        none
      else if run.client.connected then
        some (run.start method)
      else
        some run
  | .ended rpc how now =>
      if rpc ∈ run.inFlight then
        some
          { run with
            client := run.client.rpcEnded rpc.method now how
            inFlight := run.inFlight.erase rpc }
      else
        none

end ClientRun

/- The runs of the client. -/
def clientRuns : Transition ClientStep ClientRun where
  step := ClientRun.step

------------------------------------------------------------
-- Outcomes
------------------------------------------------------------

/- An RPC that came to its end. -/
structure RpcOutcome where
  method : RpcMethod
  how : RpcEnd
deriving DecidableEq, Repr

namespace RpcOutcome

/- A fatal error. -/
def fatal (o : RpcOutcome) : Bool :=
  match o.how with
  | .rpcError code => code.any (· ∈ fatalGrpcCodes)
  | _ => false

/- A success that is recorded. -/
def restarts (o : RpcOutcome) : Bool :=
  decide (o.method = .submitOrder) && decide (o.how = .response)

theorem not_restarts_of_fatal
    {o : RpcOutcome}
    (hFatal : o.fatal = true) :
    o.restarts = false := by
  rcases o with ⟨method, how⟩
  cases how with
  | response => simp [fatal] at hFatal
  | rpcError code => simp [restarts]
  | other => simp [restarts]

end RpcOutcome

/- The outcome a step brings, if any. -/
def ClientStep.outcome : ClientStep → Option RpcOutcome
  | .ended rpc how _ => some ⟨rpc.method, how⟩
  | _ => none

/- The outcomes of a run, the latest first. -/
def outcomes (es : List ClientStep) : List RpcOutcome :=
  es.reverse.filterMap ClientStep.outcome

theorem outcomes_snoc
    (es : List ClientStep)
    (e : ClientStep) :
    outcomes (es ++ [e]) = e.outcome.toList ++ outcomes es := by
  unfold outcomes
  rw [List.reverse_append, List.reverse_singleton,
    List.singleton_append, List.filterMap_cons]
  cases e.outcome <;> rfl

/- The outcomes since the last success that is recorded. -/
def sinceSuccess (outs : List RpcOutcome) : List RpcOutcome :=
  outs.takeWhile fun o => !o.restarts

/- The failures the breaker counts. -/
def counted (outs : List RpcOutcome) : Nat :=
  (sinceSuccess outs).countP RpcOutcome.fatal

theorem counted_cons_restarts
    {o : RpcOutcome}
    (outs : List RpcOutcome)
    (hRestarts : o.restarts = true) :
    counted (o :: outs) = 0 := by
  simp [counted, sinceSuccess, hRestarts]

theorem counted_cons_fatal
    {o : RpcOutcome}
    (outs : List RpcOutcome)
    (hFatal : o.fatal = true) :
    counted (o :: outs) = counted outs + 1 := by
  have hGoesOn := RpcOutcome.not_restarts_of_fatal hFatal
  simp [counted, sinceSuccess, hGoesOn, hFatal]

theorem counted_cons_other
    {o : RpcOutcome}
    (outs : List RpcOutcome)
    (hRestarts : o.restarts = false)
    (hFatal : o.fatal = false) :
    counted (o :: outs) = counted outs := by
  simp [counted, sinceSuccess, hRestarts, hFatal]

------------------------------------------------------------
-- What a step does to the breaker
------------------------------------------------------------

/- A fatal error is recorded, whatever its method. -/
theorem CircuitBreaker.rpcEnded_of_fatal
    {cb : CircuitBreaker}
    {rpc : Rpc}
    {how : RpcEnd}
    {now : Seconds}
    {o : RpcOutcome}
    (hOutcome : o ∈ (ClientStep.ended rpc how now).outcome)
    (hFatal : o.fatal = true) :
    cb.rpcEnded rpc.method now how = cb.recordFailure now := by
  cases Option.mem_def.mp hOutcome
  cases how with
  | response => simp [RpcOutcome.fatal] at hFatal
  | rpcError code => exact if_pos hFatal
  | other => simp [RpcOutcome.fatal] at hFatal

section Steps

variable {run run' : ClientRun} {e : ClientStep}

theorem breaker_rpcEnded
    (client : BotGrpcClient)
    (method : RpcMethod)
    (now : Seconds)
    (how : RpcEnd) :
    (client.rpcEnded method now how).breaker =
      client.breaker.rpcEnded method now how := by
  cases how with
  | response =>
      dsimp only [BotGrpcClient.rpcEnded, CircuitBreaker.rpcEnded]
      split <;> rfl
  | rpcError code =>
      dsimp only [BotGrpcClient.rpcEnded, CircuitBreaker.rpcEnded,
        BotGrpcClient.onRpcError]
      split <;> rfl
  | other => rfl

/- An attempt only asks the breaker, if it does as much. -/
theorem breaker_prepare
    (client : BotGrpcClient)
    (args : SubmitOrderArgs)
    (now : Seconds)
    (drawnCoid drawnTid : UuidText) :
    (client.prepare args now drawnCoid drawnTid).2.breaker =
        client.breaker ∨
      (client.prepare args now drawnCoid drawnTid).2.breaker =
        (client.breaker.isOpen now).2 := by
  unfold BotGrpcClient.prepare
  split
  · right
    dsimp only
    split
    · rfl
    · split <;> rfl
  · exact .inl rfl

theorem client_submit
    (run : ClientRun)
    (args : SubmitOrderArgs)
    (now : Seconds)
    (drawnCoid drawnTid : UuidText) :
    (run.submit args now drawnCoid drawnTid).client =
      (run.client.prepare args now drawnCoid drawnTid).2 := by
  unfold ClientRun.submit
  split
  · rename_i hPrepared
    rw [hPrepared]
    rfl
  · rename_i hPrepared
    rw [hPrepared]

/-
  A step brings an outcome, and the breaker records it, or it
  brings none, and at most asks the breaker.
-/
theorem breaker_step
    (hStep : run.step e = some run') :
    (∃ rpc how now,
        e = .ended rpc how now ∧
          run'.client.breaker =
            run.client.breaker.rpcEnded rpc.method now how) ∨
      (e.outcome = none ∧
        (run'.client.breaker = run.client.breaker ∨
          ∃ now,
            run'.client.breaker =
              (run.client.breaker.isOpen now).2)) := by
  cases e with
  | probed ready =>
      cases hStep
      exact .inr ⟨rfl, .inl rfl⟩
  | disconnected =>
      cases hStep
      exact .inr ⟨rfl, .inl rfl⟩
  | askedOpen now =>
      cases hStep
      exact .inr ⟨rfl, .inr ⟨now, rfl⟩⟩
  | submit args now drawnCoid drawnTid =>
      cases hStep
      rw [client_submit]
      have hAsked :=
        breaker_prepare run.client args now drawnCoid drawnTid
      exact .inr ⟨rfl, hAsked.imp_right fun hOpen => ⟨now, hOpen⟩⟩
  | call method =>
      dsimp only [ClientRun.step] at hStep
      split at hStep
      · cases hStep
      · split at hStep
        · cases hStep
          exact .inr ⟨rfl, .inl rfl⟩
        · cases hStep
          exact .inr ⟨rfl, .inl rfl⟩
  | ended rpc how now =>
      dsimp only [ClientRun.step] at hStep
      split at hStep
      · cases hStep
        exact .inl ⟨rpc, how, now, rfl, breaker_rpcEnded _ _ _ _⟩
      · cases hStep

end Steps

------------------------------------------------------------
-- What the breaker counts
------------------------------------------------------------

/- The number of failures that opens the breaker. -/
def failureLimit (failureThreshold : ℤ) : Nat :=
  max 1 failureThreshold.toNat

/- The breaker counts the failures since the last recorded success. -/
structure Counts
    (failureThreshold : ℤ)
    (cb : CircuitBreaker)
    (outs : List RpcOutcome) : Prop where
  threshold : cb.failureThreshold = failureThreshold
  failures : cb.failures = counted outs
  closed :
    cb.state = .closed ↔
      counted outs < failureLimit failureThreshold

theorem CircuitBreaker.recordFailure_fields
    (cb : CircuitBreaker)
    (now : Seconds) :
    (cb.recordFailure now).failureThreshold = cb.failureThreshold ∧
      (cb.recordFailure now).failures = cb.failures + 1 := by
  unfold recordFailure
  dsimp only
  split
  · exact ⟨rfl, rfl⟩
  · split
    · exact ⟨rfl, rfl⟩
    · exact ⟨rfl, rfl⟩
  · exact ⟨rfl, rfl⟩

/- A breaker stays closed only below its threshold. -/
theorem CircuitBreaker.recordFailure_closed_iff
    (cb : CircuitBreaker)
    (now : Seconds) :
    (cb.recordFailure now).state = .closed ↔
      cb.state = .closed ∧
        ¬cb.failureThreshold ≤ (cb.failures + 1 : Nat) := by
  unfold recordFailure
  dsimp only
  split
  · rename_i hState
    simp [hState]
  · rename_i hState
    split
    · rename_i hReached
      exact iff_of_false (by simp) fun hBoth => hBoth.2 hReached
    · rename_i hBelow
      exact iff_of_true hState ⟨hState, hBelow⟩
  · rename_i hState
    simp [hState]

/- A failure never half opens the breaker. -/
theorem CircuitBreaker.recordFailure_opened
    {cb : CircuitBreaker}
    {now : Seconds}
    (hClosed : cb.state = .closed)
    (hLeaves : (cb.recordFailure now).state ≠ .closed) :
    (cb.recordFailure now).state = .opened now := by
  unfold recordFailure at hLeaves ⊢
  dsimp only at hLeaves ⊢
  rw [hClosed] at hLeaves ⊢
  dsimp only at hLeaves ⊢
  split
  · rfl
  · rename_i hBelow
    rw [if_neg hBelow] at hLeaves
    exact absurd rfl hLeaves

namespace Counts

variable {threshold : ℤ} {cb : CircuitBreaker}
variable {outs : List RpcOutcome}

/- Asking does not count, and does not close or open. -/
theorem isOpen
    (hCounts : Counts threshold cb outs)
    (now : Seconds) :
    Counts threshold (cb.isOpen now).2 outs := by
  have hClosed := hCounts.closed
  unfold CircuitBreaker.isOpen
  split
  · rename_i openedAt hState
    rw [hState] at hClosed
    split
    · refine ⟨hCounts.threshold, hCounts.failures, ?_⟩
      rw [← hClosed]
      simp
    · exact hCounts
  · exact hCounts

theorem recordSuccess
    {o : RpcOutcome}
    (hCounts : Counts threshold cb outs)
    (hRestarts : o.restarts = true) :
    Counts threshold cb.recordSuccess (o :: outs) := by
  have hZero := counted_cons_restarts outs hRestarts
  have hLimit : 0 < failureLimit threshold :=
    Nat.lt_of_lt_of_le Nat.one_pos (Nat.le_max_left _ _)
  refine ⟨hCounts.threshold, hZero.symm, ?_⟩
  rw [hZero]
  exact ⟨fun _ => hLimit, fun _ => rfl⟩

/- A failure reaches the limit exactly if it reaches the threshold. -/
theorem limit_le_succ_iff
    (threshold : ℤ)
    (n : Nat) :
    failureLimit threshold ≤ n + 1 ↔ threshold ≤ (n + 1 : Nat) := by
  unfold failureLimit
  omega

theorem recordFailure
    {o : RpcOutcome}
    (hCounts : Counts threshold cb outs)
    (hFatal : o.fatal = true)
    (now : Seconds) :
    Counts threshold (cb.recordFailure now) (o :: outs) := by
  have hSucc := counted_cons_fatal outs hFatal
  have hFields := cb.recordFailure_fields now
  refine ⟨?_, ?_, ?_⟩
  · rw [hFields.1, hCounts.threshold]
  · rw [hFields.2, hCounts.failures, hSucc]
  · rw [cb.recordFailure_closed_iff now, hCounts.closed,
      hCounts.threshold, hCounts.failures, hSucc,
      ← limit_le_succ_iff]
    omega

/- Whatever comes to its end is counted as the breaker counts it. -/
theorem rpcEnded
    (hCounts : Counts threshold cb outs)
    (method : RpcMethod)
    (how : RpcEnd)
    (now : Seconds) :
    Counts threshold (cb.rpcEnded method now how)
      (⟨method, how⟩ :: outs) := by
  have hSame :
      ∀ o : RpcOutcome,
        o.restarts = false → o.fatal = false →
          Counts threshold cb (o :: outs) := by
    intro o hRestarts hFatal
    have hEq := counted_cons_other outs hRestarts hFatal
    refine ⟨hCounts.threshold, ?_, ?_⟩
    · rw [hEq, hCounts.failures]
    · rw [hEq, hCounts.closed]
  cases how with
  | response =>
      dsimp only [CircuitBreaker.rpcEnded]
      split
      · rename_i hSubmit
        exact hCounts.recordSuccess (by simp [RpcOutcome.restarts, hSubmit])
      · rename_i hOther
        exact hSame _ (by simp [RpcOutcome.restarts, hOther]) rfl
  | rpcError code =>
      dsimp only [CircuitBreaker.rpcEnded]
      split
      · rename_i hFatal
        exact hCounts.recordFailure (o := ⟨method, .rpcError code⟩)
          hFatal now
      · rename_i hFatal
        exact hSame _ (by simp [RpcOutcome.restarts])
          (by simpa [RpcOutcome.fatal] using hFatal)
  | other =>
      exact hSame _ (by simp [RpcOutcome.restarts]) rfl

end Counts

section Runs

variable {threshold : ℤ} {interval : Seconds}
variable {es : List ClientStep} {e : ClientStep}
variable {run run' : ClientRun}

theorem counts_step
    {outs : List RpcOutcome}
    (hCounts : Counts threshold run.client.breaker outs)
    (hStep : run.step e = some run') :
    Counts threshold run'.client.breaker
      (e.outcome.toList ++ outs) := by
  rcases breaker_step hStep with
    ⟨rpc, how, now, rfl, hBreaker⟩ | ⟨hNone, hBreaker⟩
  · rw [hBreaker]
    exact hCounts.rpcEnded rpc.method how now
  · rw [hNone, Option.toList_none, List.nil_append]
    rcases hBreaker with hSame | ⟨now, hAsked⟩
    · rw [hSame]
      exact hCounts
    · rw [hAsked]
      exact hCounts.isOpen now

/- In every run the breaker counts failures since a recorded success. -/
theorem counts_of_exec
    (hExec :
      clientRuns.exec (.boot threshold interval) es = some run) :
    Counts threshold run.client.breaker (outcomes es) := by
  refine Transition.exec_induction
    (P := fun es run =>
      Counts threshold run.client.breaker (outcomes es))
    ?_ ?_ hExec
  · have hLimit : 0 < failureLimit threshold :=
      Nat.lt_of_lt_of_le Nat.one_pos (Nat.le_max_left _ _)
    exact ⟨rfl, rfl, fun _ => hLimit, fun _ => rfl⟩
  · intro es run e run' _ hCounts hStep
    rw [outcomes_snoc]
    exact counts_step hCounts hStep

/-
  The step that opens a closed breaker is a fatal error that
  brings the count to the limit.
-/
theorem opens_iff
    (hExec :
      clientRuns.exec (.boot threshold interval) es = some run)
    (hStep : run.step e = some run') :
    (run.client.breaker.state = .closed ∧
        ∃ openedAt, run'.client.breaker.state = .opened openedAt) ↔
      (∃ o ∈ e.outcome, o.fatal = true) ∧
        counted (outcomes (es ++ [e])) = failureLimit threshold := by
  have hBefore := counts_of_exec hExec
  have hAfter := counts_step hBefore hStep
  have hPositive : 0 < failureLimit threshold :=
    Nat.lt_of_lt_of_le Nat.one_pos (Nat.le_max_left _ _)
  rw [outcomes_snoc]
  rw [hBefore.closed]
  constructor
  · rintro ⟨hBelow, openedAt, hOpened⟩
    have hReached :
        ¬counted (e.outcome.toList ++ outcomes es) <
          failureLimit threshold := by
      rw [← hAfter.closed, hOpened]
      simp
    cases hOutcome : e.outcome with
    | none =>
        rw [hOutcome] at hReached
        exact absurd hBelow hReached
    | some o =>
        rw [hOutcome] at hReached
        simp only [Option.toList_some, List.singleton_append]
          at hReached ⊢
        by_cases hFatal : o.fatal = true
        · rw [counted_cons_fatal _ hFatal] at hReached ⊢
          exact ⟨⟨o, rfl, hFatal⟩, by omega⟩
        · by_cases hRestarts : o.restarts = true
          · rw [counted_cons_restarts _ hRestarts] at hReached
            exact absurd hPositive hReached
          · rw [counted_cons_other _ (by simpa using hRestarts)
              (by simpa using hFatal)] at hReached
            exact absurd hBelow hReached
  · rintro ⟨⟨o, hOutcome, hFatal⟩, hCount⟩
    rw [Option.mem_def.mp hOutcome] at hCount
    simp only [Option.toList_some, List.singleton_append,
      counted_cons_fatal _ hFatal] at hCount
    have hBelow : counted (outcomes es) < failureLimit threshold := by
      omega
    refine ⟨hBelow, ?_⟩
    have hLeaves : run'.client.breaker.state ≠ .closed := by
      intro hClosed
      have hStill := hAfter.closed.mp hClosed
      rw [Option.mem_def.mp hOutcome] at hStill
      simp only [Option.toList_some, List.singleton_append,
        counted_cons_fatal _ hFatal] at hStill
      omega
    rcases breaker_step hStep with
      ⟨rpc, how, now, rfl, hBreaker⟩ | ⟨hNone, _⟩
    · have hRecorded :
          run.client.breaker.rpcEnded rpc.method now how =
            run.client.breaker.recordFailure now :=
        CircuitBreaker.rpcEnded_of_fatal hOutcome hFatal
      rw [hBreaker, hRecorded] at hLeaves ⊢
      exact ⟨now, CircuitBreaker.recordFailure_opened
        (hBefore.closed.mpr hBelow) hLeaves⟩
    · rw [hNone] at hOutcome
      simp at hOutcome

end Runs

------------------------------------------------------------
-- Consecutive failures
------------------------------------------------------------

section Latest

variable {α : Type} {p q : α → Bool}

/- The first `n` of a list pass exactly if as many are taken. -/
theorem le_length_takeWhile_iff
    (n : Nat)
    (l : List α) :
    n ≤ (l.takeWhile p).length ↔
      n ≤ l.length ∧ ∀ x ∈ l.take n, p x = true := by
  induction l generalizing n with
  | nil => simp
  | cons x l ih =>
      cases n with
      | zero => simp
      | succ n =>
          cases hFirst : p x with
          | false => simp [hFirst]
          | true => simp [hFirst, ih n]

/-
  Of those that pass, as many are taken first as are there
  exactly if none comes after one that does not pass.
-/
theorem countP_le_length_takeWhile_iff
    (l : List α) :
    l.countP p ≤ (l.takeWhile p).length ↔
      ∀ x ∈ l.dropWhile p, p x = false := by
  have hTaken : (l.takeWhile p).countP p = (l.takeWhile p).length :=
    List.countP_eq_length.mpr fun _ hx => List.mem_takeWhile_imp hx
  have hSplit :
      l.countP p =
        (l.takeWhile p).countP p + (l.dropWhile p).countP p := by
    rw [← List.countP_append, List.takeWhile_append_dropWhile]
  have hNone : (l.dropWhile p).countP p = 0 ↔
      ∀ x ∈ l.dropWhile p, p x = false := by
    rw [List.countP_eq_zero]
    simp only [Bool.not_eq_true]
  rw [← hNone]
  omega

end Latest

/-
  The breaker opens, from being closed, only if the last
  outcomes, as many as its threshold says, were fatal errors.
-/
def OpensOnConsecutive
    (threshold : ℤ)
    (interval : Seconds)
    (es : List ClientStep) : Prop :=
  ∀ pre e post run run',
    es = pre ++ e :: post →
    clientRuns.exec (.boot threshold interval) pre = some run →
    run.step e = some run' →
    run.client.breaker.state = .closed →
    (∃ openedAt, run'.client.breaker.state = .opened openedAt) →
      threshold.toNat ≤ (outcomes (pre ++ [e])).length ∧
        ∀ o ∈ (outcomes (pre ++ [e])).take threshold.toNat,
          o.fatal = true

/-
  Whenever a fatal error brings the failures since the last
  successful `SubmitOrder` to the limit, no outcome of another
  kind lies between the first of them and the last.
-/
def Unbroken
    (threshold : ℤ)
    (es : List ClientStep) : Prop :=
  ∀ pre e post,
    es = pre ++ e :: post →
    (∃ o ∈ e.outcome, o.fatal = true) →
    counted (outcomes (pre ++ [e])) = failureLimit threshold →
      ∀ o ∈ (sinceSuccess (outcomes (pre ++ [e]))).dropWhile
          RpcOutcome.fatal,
        o.fatal = false

/- The latest outcomes that are fatal come after every success. -/
theorem takeWhile_sinceSuccess
    (outs : List RpcOutcome) :
    (sinceSuccess outs).takeWhile RpcOutcome.fatal =
      outs.takeWhile RpcOutcome.fatal := by
  unfold sinceSuccess
  rw [List.takeWhile_takeWhile]
  congr 1
  funext o
  cases hFatal : o.fatal with
  | false => simp
  | true => simp [RpcOutcome.not_restarts_of_fatal hFatal]

/- At the limit, the failures are consecutive if nothing is between. -/
theorem consecutive_iff
    {threshold : ℤ}
    {outs : List RpcOutcome}
    (hLatest : ∃ o ∈ outs.head?, o.fatal = true)
    (hCount : counted outs = failureLimit threshold) :
    (threshold.toNat ≤ outs.length ∧
        ∀ o ∈ outs.take threshold.toNat, o.fatal = true) ↔
      ∀ o ∈ (sinceSuccess outs).dropWhile RpcOutcome.fatal,
        o.fatal = false := by
  have hOne : 1 ≤ (outs.takeWhile RpcOutcome.fatal).length := by
    rcases hLatest with ⟨o, hHead, hFatal⟩
    cases outs with
    | nil => simp at hHead
    | cons first rest =>
        simp only [List.head?_cons, Option.mem_def,
          Option.some.injEq] at hHead
        rw [hHead, List.takeWhile_cons_of_pos hFatal]
        simp
  rw [← le_length_takeWhile_iff, ← countP_le_length_takeWhile_iff,
    takeWhile_sinceSuccess]
  unfold counted failureLimit at hCount
  rw [hCount]
  omega

theorem latest_fatal
    {e : ClientStep}
    (es : List ClientStep)
    (hFatal : ∃ o ∈ e.outcome, o.fatal = true) :
    ∃ o ∈ (outcomes (es ++ [e])).head?, o.fatal = true := by
  rcases hFatal with ⟨o, hOutcome, hFatal⟩
  rw [outcomes_snoc, Option.mem_def.mp hOutcome]
  exact ⟨o, rfl, hFatal⟩

/-
  The breaker opens on consecutive failures only exactly in the
  runs where no other outcome comes between the failures that
  it counts.
-/
theorem opensOnConsecutive_iff
    {threshold : ℤ}
    {interval : Seconds}
    {es : List ClientStep}
    {last : ClientRun}
    (hRun : clientRuns.exec (.boot threshold interval) es = some last) :
    OpensOnConsecutive threshold interval es ↔
      Unbroken threshold es := by
  constructor
  · intro hOpens pre e post hSplit hFatal hCount
    have hExec := hRun
    rw [hSplit] at hExec
    rcases Transition.exec_append.mp hExec with ⟨run, hPre, hRest⟩
    rcases Transition.exec_cons.mp hRest with ⟨run', hStep, _⟩
    have hOpened := (opens_iff hPre hStep).mpr ⟨hFatal, hCount⟩
    have hLast :=
      hOpens pre e post run run' hSplit hPre hStep hOpened.1 hOpened.2
    exact (consecutive_iff (latest_fatal pre hFatal) hCount).mp hLast
  · intro hUnbroken pre e post run run' hSplit hPre hStep hClosed
      hOpened
    rcases (opens_iff hPre hStep).mp ⟨hClosed, hOpened⟩ with
      ⟨hFatal, hCount⟩
    exact (consecutive_iff (latest_fatal pre hFatal) hCount).mpr
      (hUnbroken pre e post hSplit hFatal hCount)

/- The method that asks for a token, three times. -/
def tokenInfo (n : Nat) : Rpc :=
  ⟨n, .getTokenInfo⟩

/- Two failures with a success between them. -/
def failuresApart : List ClientStep :=
  [.probed true, .call .getTokenInfo,
    .ended (tokenInfo 0) (.rpcError (some .unavailable)) 1,
    .probed true, .call .getTokenInfo,
    .ended (tokenInfo 1) .response 2,
    .call .getTokenInfo]

/- The second of them. -/
def lastFailure : ClientStep :=
  .ended (tokenInfo 2) (.rpcError (some .unavailable)) 3

/- A threshold of two is reached although a call succeeded between. -/
theorem opens_apart :
    ¬OpensOnConsecutive 2 30 (failuresApart ++ [lastFailure]) := by
  intro hOpens
  have hLast :=
    hOpens failuresApart lastFailure [] _ _ rfl rfl rfl rfl ⟨3, rfl⟩
  exact absurd hLast (by decide)

/- Two failures one after the other. -/
def failuresTogether : List ClientStep :=
  [.probed true, .call .getTokenInfo, .call .cancelOrder,
    .ended (tokenInfo 0) (.rpcError (some .unavailable)) 1,
    .ended ⟨1, .cancelOrder⟩ (.rpcError (some .internal)) 2]

/- Where they leave the client. -/
def togetherRun : ClientRun where
  client := ⟨false, ⟨2, 30, 2, .opened 2⟩⟩
  inFlight := []
  started := 2

theorem together_exec :
    clientRuns.exec (.boot 2 30) failuresTogether =
      some togetherRun := by
  decide

theorem opensOnConsecutive_sample :
    OpensOnConsecutive 2 30 failuresTogether ↔
      Unbroken 2 failuresTogether :=
  opensOnConsecutive_iff together_exec

end Pumpy
