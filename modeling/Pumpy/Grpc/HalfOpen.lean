import Pumpy.Grpc.Breaker

/-
  The half-open breaker: which orders are sent to an engine that
  is only being tried again.

  Asking whether the breaker is open half opens it, and from
  then on the answer is no, for every caller, until an outcome
  is recorded.

  Key definitions include:
    * `TurnedAway`
    * `Probes`
    * `SingleProbe`
    * `ProbedAlone`

  The main results are `exec_calls`, that a half-open breaker
  lets any number of orders through, and `singleProbe_iff`.
-/

namespace Pumpy

open Interleaving

------------------------------------------------------------
-- Calls that are turned away
------------------------------------------------------------

/- An order as `submit_order` is called for it. -/
structure OrderAttempt where
  args : SubmitOrderArgs
  now : Seconds
  drawnCoid : UuidText
  drawnTid : UuidText

namespace OrderAttempt

/- The call, as a step. -/
def step (attempt : OrderAttempt) : ClientStep :=
  .submit attempt.args attempt.now attempt.drawnCoid
    attempt.drawnTid

/- Its message, if the arguments fit one. -/
def message (attempt : OrderAttempt) : Option SubmitOrderRequest :=
  attempt.args.request
    (orElseDrawn attempt.args.clientOrderId attempt.drawnCoid)
    (orElseDrawn attempt.args.traceId attempt.drawnTid)

end OrderAttempt

/-
  What keeps a call of `submit_order` from sending: there is no
  connection, the breaker is open and not yet to be tried again,
  or the arguments do not fit the message.
-/
def TurnedAway
    (client : BotGrpcClient)
    (attempt : OrderAttempt) : Prop :=
  client.connected = false ∨
    (client.breaker.isOpen attempt.now).1 = true ∨
    attempt.message = none

/- The step starts an RPC of `submit_order`. -/
def Starts (run run' : ClientRun) (rpc : Rpc) : Prop :=
  rpc.method = .submitOrder ∧
    run'.inFlight = run.inFlight ++ [rpc]

section Starts

variable {run run' : ClientRun} {client : BotGrpcClient}
variable {attempt : OrderAttempt} {e : ClientStep}

/- A call sends a message exactly if nothing turns it away. -/
theorem prepare_sent_iff :
    (∃ req,
        (client.prepare attempt.args attempt.now attempt.drawnCoid
          attempt.drawnTid).1 = .sent req) ↔
      ¬TurnedAway client attempt := by
  unfold TurnedAway BotGrpcClient.prepare OrderAttempt.message
  dsimp only
  generalize
    attempt.args.request
        (orElseDrawn attempt.args.clientOrderId attempt.drawnCoid)
        (orElseDrawn attempt.args.traceId attempt.drawnTid) =
      message
  cases hConnected : client.connected with
  | false => simp
  | true =>
      cases (client.breaker.isOpen attempt.now).1 with
      | true => simp
      | false =>
          cases message with
          | none => simp
          | some req => simp

/- A call that is turned away leaves the RPCs as they are. -/
theorem submit_of_turnedAway
    (hAway : TurnedAway run.client attempt) :
    (run.submit attempt.args attempt.now attempt.drawnCoid
      attempt.drawnTid).inFlight = run.inFlight := by
  unfold ClientRun.submit
  split
  · rename_i req client hPrepared
    have hSent :
        (run.client.prepare attempt.args attempt.now
          attempt.drawnCoid attempt.drawnTid).1 = .sent req := by
      rw [hPrepared]
    exact absurd hAway (prepare_sent_iff.mp ⟨req, hSent⟩)
  · rfl

/- A call that is not starts an RPC. -/
theorem submit_of_not_turnedAway
    (hPasses : ¬TurnedAway run.client attempt) :
    Starts run
      (run.submit attempt.args attempt.now attempt.drawnCoid
        attempt.drawnTid)
      (run.next .submitOrder) := by
  rcases prepare_sent_iff.mpr hPasses with ⟨req, hSent⟩
  refine ⟨rfl, ?_⟩
  unfold ClientRun.submit
  split
  · rfl
  · rename_i client hOther hPrepared
    rw [hPrepared] at hSent
    exact absurd hSent (hOther req)

/- Nothing but a call of `submit_order` starts one of its RPCs. -/
theorem submits_of_starts
    {rpc : Rpc}
    (hStep : run.step e = some run')
    (hStarts : Starts run run' rpc) :
    ∃ attempt : OrderAttempt,
      e = attempt.step ∧ ¬TurnedAway run.client attempt := by
  rcases hStarts with ⟨hMethod, hInFlight⟩
  have hLonger : run'.inFlight.length = run.inFlight.length + 1 := by
    rw [hInFlight, List.length_append, List.length_singleton]
  cases e with
  | probed ready =>
      cases hStep
      simp [ClientRun.meets] at hLonger
  | disconnected =>
      cases hStep
      simp [ClientRun.meets] at hLonger
  | askedOpen now =>
      cases hStep
      simp [ClientRun.meets] at hLonger
  | submit args now drawnCoid drawnTid =>
      refine ⟨⟨args, now, drawnCoid, drawnTid⟩, rfl, ?_⟩
      intro hAway
      cases hStep
      rw [submit_of_turnedAway hAway] at hLonger
      omega
  | call method =>
      dsimp only [ClientRun.step] at hStep
      split at hStep
      · cases hStep
      · rename_i hOther
        split at hStep
        · cases hStep
          have hSame : run.next method = rpc :=
            List.singleton_inj.mp (List.append_inj' hInFlight rfl).2
          rw [← hSame] at hMethod
          exact absurd hMethod hOther
        · cases hStep
          omega
  | ended rpc' how now =>
      dsimp only [ClientRun.step] at hStep
      split at hStep
      · cases hStep
        have hErased :
            (run.inFlight.erase rpc').length ≤ run.inFlight.length :=
          List.length_erase_le
        dsimp only at hLonger
        omega
      · cases hStep

end Starts

------------------------------------------------------------
-- A breaker that is half open
------------------------------------------------------------

------------------------------------------------------------
-- The probe
------------------------------------------------------------

section Probe

variable (start : ClientRun) (es : List ClientStep)

/- Step `n` starts an RPC of `submit_order`. -/
def StartsAt (n : Nat) (rpc : Rpc) : Prop :=
  ∃ e run run',
    clientRuns.StepAt start es n e run run' ∧ Starts run run' rpc

/- It does so with the breaker half open. -/
def StartsHalfOpenAt (n : Nat) (rpc : Rpc) : Prop :=
  ∃ e run run',
    clientRuns.StepAt start es n e run run' ∧
      Starts run run' rpc ∧
      run'.client.breaker.state = .halfOpen

/- Step `n` half opens the breaker. -/
def HalfOpensAt (n : Nat) : Prop :=
  ∃ e run run',
    clientRuns.StepAt start es n e run run' ∧
      run.client.breaker.state ≠ .halfOpen ∧
      run'.client.breaker.state = .halfOpen

/- Step `n` brings an outcome of the RPC that the breaker records. -/
def RecordedAt (n : Nat) (rpc : Rpc) : Prop :=
  ∃ how now,
    es[n]? = some (.ended rpc how now) ∧
      ((⟨rpc.method, how⟩ : RpcOutcome).restarts = true ∨
        (⟨rpc.method, how⟩ : RpcOutcome).fatal = true)

/-
  The RPC started by step `i` is the first to be started in the
  half-open state that step `k` led to.
-/
structure Probes (k i : Nat) (rpc : Rpc) : Prop where
  entered : HalfOpensAt start es k
  later : k ≤ i
  starts : StartsHalfOpenAt start es i rpc
  first :
    ∀ j other, k ≤ j → j < i → ¬StartsHalfOpenAt start es j other

/- At step `j` the first RPC is started and its outcome not recorded. -/
def UnderProbe (j : Nat) : Prop :=
  ∃ k i rpc,
    Probes start es k i rpc ∧ i < j ∧
      ∀ m, i < m → m < j → ¬RecordedAt es m rpc

/- Until its outcome is recorded, no other RPC is started. -/
def SingleProbe : Prop :=
  ∀ j rpc, UnderProbe start es j → ¬StartsAt start es j rpc

/- Until then every call of `submit_order` is turned away. -/
def ProbedAlone : Prop :=
  ∀ j (attempt : OrderAttempt) run run',
    UnderProbe start es j →
      clientRuns.StepAt start es j attempt.step run run' →
        TurnedAway run.client attempt

end Probe

/-
  In a run, the probe of a half-open breaker stays the only one
  exactly if whoever else calls `submit_order` is turned away by
  something else: by the lost connection, by a breaker that
  another failure has opened again, or by the message.
-/
theorem singleProbe_iff
    (threshold : ℤ)
    (interval : Seconds)
    (es : List ClientStep) :
    SingleProbe (.boot threshold interval) es ↔
      ProbedAlone (.boot threshold interval) es := by
  constructor
  · intro hSingle j attempt run run' hUnder hAt
    by_contra hPasses
    have hStarts := submit_of_not_turnedAway hPasses
    refine hSingle j (run.next .submitOrder) hUnder
      ⟨attempt.step, run, run', hAt, ?_⟩
    cases hAt.step
    exact hStarts
  · rintro hAlone j rpc hUnder ⟨e, run, run', hAt, hStarts⟩
    rcases submits_of_starts hAt.step hStarts with
      ⟨attempt, rfl, hPasses⟩
    exact hPasses (hAlone j attempt run run' hUnder hAt)

------------------------------------------------------------
-- Two probes
------------------------------------------------------------

/- An order, called for at some time. -/
def sampleAttempt (now : Seconds) : OrderAttempt where
  args := { tokenMint := "mint", side := "buy", amount := 1 }
  now := now
  drawnCoid := ⟨"coid", by decide⟩
  drawnTid := ⟨"tid", by decide⟩

/-
  A first order fails and opens the breaker; after the interval
  two are called for, one right after the other.
-/
def twoOrders : List ClientStep :=
  [.probed true, (sampleAttempt 0).step,
    .ended ⟨0, .submitOrder⟩ (.rpcError (some .unavailable)) 1,
    .probed true, (sampleAttempt 40).step, (sampleAttempt 41).step]

def beforeProbe : ClientRun where
  client := ⟨true, ⟨1, 30, 1, .opened 1⟩⟩
  inFlight := []
  started := 1

def oneProbe : ClientRun where
  client := ⟨true, ⟨1, 30, 1, .halfOpen⟩⟩
  inFlight := [⟨1, .submitOrder⟩]
  started := 2

def twoProbes : ClientRun where
  client := ⟨true, ⟨1, 30, 1, .halfOpen⟩⟩
  inFlight := [⟨1, .submitOrder⟩, ⟨2, .submitOrder⟩]
  started := 3

theorem firstProbe_at :
    clientRuns.StepAt (.boot 1 30) twoOrders 4
      (sampleAttempt 40).step beforeProbe oneProbe where
  event := rfl
  before := by decide +kernel
  step := by decide +kernel

theorem secondProbe_at :
    clientRuns.StepAt (.boot 1 30) twoOrders 5
      (sampleAttempt 41).step oneProbe twoProbes where
  event := rfl
  before := by decide +kernel
  step := by decide +kernel

/- Both orders are sent, the second before the first is answered. -/
theorem two_probes :
    ¬SingleProbe (.boot 1 30) twoOrders := by
  intro hSingle
  have hProbes :
      Probes (.boot 1 30) twoOrders 4 4 ⟨1, .submitOrder⟩ := by
    refine ⟨?_, Nat.le_refl 4, ?_, ?_⟩
    · exact ⟨_, _, _, firstProbe_at, by decide, rfl⟩
    · exact ⟨_, _, _, firstProbe_at, ⟨rfl, rfl⟩, rfl⟩
    · intro j other hFrom hBelow
      omega
  have hUnder : UnderProbe (.boot 1 30) twoOrders 5 := by
    refine ⟨4, 4, _, hProbes, by decide, ?_⟩
    intro m hAfter hBefore
    omega
  exact hSingle 5 ⟨2, .submitOrder⟩ hUnder
    ⟨_, _, _, secondProbe_at, rfl, rfl⟩

end Pumpy
