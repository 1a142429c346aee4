import Pumpy.Grpc.OrderClient
import Pumpy.Grpc.Reservation

/-
  The retries of `submit_order`, and the engine's keys.  The
  identifier of an order is drawn by each attempt anew, unless
  the caller of the client has chosen one.

  Key definitions include:
    * `acceptedFor`
    * `SentOnce`
    * `SubmitOrderArgs.Encodable`

  The main results are `retriesIdempotent_iff` and
  `not_retriesIdempotent`.
-/

namespace Pumpy

open Interleaving

------------------------------------------------------------
-- What is promised
------------------------------------------------------------

/- The manager accepts an order for one of the requests. -/
def acceptsAny
    (roots : List GrpcRoot)
    (requests : List SubmitOrderRequest) : GrpcEvent → Bool
  | .op tid (.submitOrder _ _) _ (.ok _) =>
      roots[tid]?.any fun root => root.req ∈ requests
  | _ => false

/- How many orders the engine has accepted for them. -/
def acceptedFor
    (svc : BotService)
    (requests : List SubmitOrderRequest)
    (tr : List GrpcEvent) : Nat :=
  tr.countP (acceptsAny (svc.machine.rootsIn tr) requests)

/-
  The requests carry one key, and of the engine's processes,
  whichever of the requests reach them, how often and in which
  order, at most one order is accepted for them while the key
  is remembered.
-/
structure SentOnce
    (requests : List SubmitOrderRequest)
    (k : String) : Prop where
  nonempty : k ≠ ""
  same : ∀ req ∈ requests, req.idempotencyKey = k
  accepted :
    ∀ svc clock table tr c t,
      Machine.Run svc.machine Machine.anyStep (.boot clock table) tr c →
        FirstReserved svc (.boot clock table) k t tr →
          c.state.clock ≤ t + ikeyTtl →
            acceptedFor svc requests tr ≤ 1

namespace SubmitOrderArgs

/- Whatever fails and whatever is drawn, the call sends one order. -/
def RetriesIdempotent (args : SubmitOrderArgs) : Prop :=
  ∀ (client : BotGrpcClient) (arounds : List Surroundings),
    ∃ k, SentOnce (client.submitOrder args arounds).requests k

/- The integers of a call are some that a message takes. -/
def Encodable (args : SubmitOrderArgs) : Prop :=
  ∀ n ∈ args.amount :: args.slippageBps ::
      (args.maxSolCost.toList ++ args.minSolOutput.toList),
    0 ≤ n ∧ n < 2 ^ 64

/- The caller has chosen an identifier. -/
def Identified (args : SubmitOrderArgs) : Prop :=
  ∃ id, args.clientOrderId = some id ∧ id ≠ ""

end SubmitOrderArgs

------------------------------------------------------------
-- Requests with one key
------------------------------------------------------------

section Keys

variable {requests : List SubmitOrderRequest}
variable {args : SubmitOrderArgs} {client : BotGrpcClient}
variable {arounds : List Surroundings} {k : String}

/- What is accepted for the requests is accepted for their key. -/
theorem acceptedFor_le_acceptances
    (svc : BotService)
    (hSame : ∀ req ∈ requests, req.idempotencyKey = k)
    (tr : List GrpcEvent) :
    acceptedFor svc requests tr ≤ acceptances svc tr k := by
  refine List.countP_mono_left fun e _ hAny => ?_
  cases e with
  | ext ext => cases hAny
  | op tid op env r =>
    unfold acceptsAny at hAny
    split at hAny
    · rename_i tid' p o env' orderId hEq
      cases hEq
      rcases (Option.any_eq_true _ _).mp hAny with ⟨root, hRoot, hMem⟩
      refine (Option.any_eq_true _ _).mpr ⟨root, hRoot, ?_⟩
      exact decide_eq_true (hSame _ (of_decide_eq_true hMem))
    · cases hAny

/- The engine's keys do the rest, once the requests have one. -/
theorem sentOnce_of_same
    (hKey : k ≠ "")
    (hSame : ∀ req ∈ requests, req.idempotencyKey = k) :
    SentOnce requests k where
  nonempty := hKey
  same := hSame
  accepted := by
    intro svc clock table tr c t hRun hFirst hWindow
    rcases exists_claims_le_one svc clock table hKey hRun hFirst hWindow
      with ⟨shs, hClaims⟩
    have hFor := acceptedFor_le_acceptances svc hSame tr
    unfold claims at hClaims
    omega

/- With an identifier of its caller's a call sends nothing else. -/
theorem sentOnce_of_identified
    {id : String}
    (hGiven : args.clientOrderId = some id)
    (hSome : id ≠ "") :
    SentOnce (client.submitOrder args arounds).requests id := by
  refine sentOnce_of_same hSome fun req hMem => ?_
  rcases BotGrpcClient.request_of_mem hMem with ⟨around, _, hRequest⟩
  have hKey := (key_request hRequest).2.1
  rwa [hGiven, orElseDrawn_given _ hSome] at hKey

end Keys

------------------------------------------------------------
-- What can be sent
------------------------------------------------------------

section Encoding

variable {args : SubmitOrderArgs}

theorem checkUInt64_isSome
    {n : ℤ} :
    (checkUInt64 n).isSome ↔ 0 ≤ n ∧ n < 2 ^ 64 := by
  unfold checkUInt64
  split
  · rename_i hFits
    exact iff_of_true rfl hFits
  · rename_i hNot
    exact iff_of_false (by simp) hNot

theorem checkOptionalUInt64_isSome
    {o : Option ℤ} :
    (checkOptionalUInt64 o).isSome ↔
      ∀ n ∈ o.toList, 0 ≤ n ∧ n < 2 ^ 64 := by
  cases o with
  | none => simp [checkOptionalUInt64]
  | some n => simp [checkOptionalUInt64, checkUInt64_isSome]

/- A message can be built if its integers fit, whatever the texts. -/
theorem request_isSome
    (coid tid : String) :
    (args.request coid tid).isSome ↔ args.Encodable := by
  unfold SubmitOrderArgs.request SubmitOrderArgs.Encodable
  rw [List.forall_mem_cons, List.forall_mem_cons, List.forall_mem_append,
    ← checkUInt64_isSome, ← checkUInt64_isSome,
    ← checkOptionalUInt64_isSome, ← checkOptionalUInt64_isSome]
  cases checkUInt64 args.amount with
  | none => simp
  | some amount =>
    cases checkUInt64 args.slippageBps with
    | none => simp
    | some slippageBps =>
      cases checkOptionalUInt64 args.maxSolCost with
      | none => simp
      | some maxSolCost =>
        cases checkOptionalUInt64 args.minSolOutput <;> simp

/- A call whose integers do not fit sends nothing. -/
theorem requests_of_not_encodable
    {client : BotGrpcClient}
    {arounds : List Surroundings}
    (hNot : ¬args.Encodable) :
    (client.submitOrder args arounds).requests = [] := by
  rw [List.eq_nil_iff_forall_not_mem]
  intro req hMem
  rcases BotGrpcClient.request_of_mem hMem with ⟨around, _, hRequest⟩
  exact hNot ((request_isSome _ _).mp (by rw [hRequest]; rfl))

end Encoding

------------------------------------------------------------
-- Two attempts that draw
------------------------------------------------------------

/- A client that is connected, with its default settings. -/
def sampleClient : BotGrpcClient where
  connected := true
  breaker :=
    { failureThreshold := 5
      recoveryInterval := 30
      failures := 0
      state := .closed }

/-
  An attempt before which the reconnect loop finds the engine
  ready; it draws the identifier, and its connection breaks
  before the response has come.
-/
def brokenConnection
    (drawnCoid : UuidText)
    (now : Seconds) : Surroundings where
  before := [.probed true]
  startedAt := now
  drawnCoid := drawnCoid
  drawnTid := drawnCoid
  during := []
  outcome := .error (.rpc (some .unavailable))
  endedAt := now

/- Without an identifier of its caller's, two attempts send two. -/
theorem requests_brokenConnection
    {args : SubmitOrderArgs}
    (drawn drawn' : UuidText)
    (hNone : ∀ d, orElseDrawn args.clientOrderId d = d)
    (hEncodable : args.Encodable) :
    ∃ req req',
      (sampleClient.submitOrder args
          [brokenConnection drawn 0, brokenConnection drawn' 1]).requests =
          [req, req'] ∧
        req.idempotencyKey = drawn ∧ req'.idempotencyKey = drawn' := by
  have hBuilt :
      ∀ coid tid, ∃ req, args.request coid tid = some req := fun coid tid =>
    Option.isSome_iff_exists.mp ((request_isSome coid tid).mpr hEncodable)
  rcases hBuilt drawn (orElseDrawn args.traceId drawn) with
    ⟨req, hReq⟩
  rcases hBuilt drawn' (orElseDrawn args.traceId drawn') with
    ⟨req', hReq'⟩
  refine ⟨req, req', ?_, (key_request hReq).2.1, (key_request hReq').2.1⟩
  simp [BotGrpcClient.submitOrder, BotGrpcClient.attempts,
    BotGrpcClient.attempt, BotGrpcClient.prepare, BotGrpcClient.settle,
    BotGrpcClient.meanwhile, BotGrpcClient.onRpcError,
    ClientEvent.apply, CircuitBreaker.isOpen,
    CircuitBreaker.recordFailure, brokenConnection, sampleClient, hNone,
    hReq, hReq', fatalGrpcCodes]

/- So the call is not safe, unless it cannot be encoded. -/
theorem not_idempotent_of_drawn
    {args : SubmitOrderArgs}
    (hNone : ∀ d, orElseDrawn args.clientOrderId d = d)
    (hEncodable : args.Encodable) :
    ¬args.RetriesIdempotent := by
  intro hIdempotent
  rcases requests_brokenConnection ⟨"a", by decide⟩ ⟨"b", by decide⟩
    hNone hEncodable with
    ⟨req, req', hRequests, hKey, hKey'⟩
  rcases hIdempotent sampleClient _ with ⟨k, hSent⟩
  have hSame := hSent.same
  rw [hRequests] at hSame
  have hFirst := hSame req (by simp)
  have hSecond := hSame req' (by simp)
  rw [hKey] at hFirst
  rw [hKey', ← hFirst] at hSecond
  exact absurd hSecond (by decide)

------------------------------------------------------------
-- When retries are idempotent
------------------------------------------------------------

/-
  They are where the caller has chosen an identifier, or where
  there is nothing that could be sent.
-/
theorem retriesIdempotent_iff
    (args : SubmitOrderArgs) :
    args.RetriesIdempotent ↔ args.Identified ∨ ¬args.Encodable := by
  constructor
  · intro hIdempotent
    by_contra hNeither
    rcases not_or.mp hNeither with ⟨hAnonymous, hEncodable⟩
    refine not_idempotent_of_drawn ?_ (not_not.mp hEncodable) hIdempotent
    intro d
    unfold orElseDrawn
    split
    · rename_i text hGiven
      by_cases hEmpty : text = ""
      · exact if_pos hEmpty
      · exact absurd ⟨text, hGiven, hEmpty⟩ hAnonymous
    · rfl
  · rintro (⟨id, hGiven, hSome⟩ | hNot) client arounds
    · exact ⟨id, sentOnce_of_identified hGiven hSome⟩
    · refine ⟨"a", sentOnce_of_same (by decide) ?_⟩
      rw [requests_of_not_encodable hNot]
      intro req hMem
      cases hMem

/- A strategy's signal comes with an identifier; its call is safe. -/
theorem idempotent_executeSignal
    {signal : TradeSignal}
    {drawnCoid drawnTid : UuidText}
    {args : SubmitOrderArgs}
    (hArgs : executeSignal signal drawnCoid drawnTid = some args) :
    args.RetriesIdempotent := by
  rcases Option.bind_eq_some_iff.mp hArgs with ⟨amount, _, hRest⟩
  cases hRest
  intro client arounds
  exact ⟨drawnCoid, sentOnce_of_identified rfl drawnCoid.2⟩

/- A manual order comes without; its call is safe if nothing is sent. -/
theorem not_idempotent_submitManualOrder
    {order : OrderRequest}
    {drawnTid : UuidText}
    {args : SubmitOrderArgs}
    (hArgs : submitManualOrder order drawnTid = some args)
    (hEncodable : args.Encodable) :
    ¬args.RetriesIdempotent := by
  rcases Option.bind_eq_some_iff.mp hArgs with ⟨amount, _, hRest⟩
  cases hRest
  exact not_idempotent_of_drawn (fun _ => rfl) hEncodable

/- What the service calls the client with for a manual order. -/
def sampleManualOrder : SubmitOrderArgs where
  tokenMint := "mint"
  side := "BUY"
  amount := 1000000000
  strategyName := "manual"
  traceId := some "trace"

def drawnFirst : UuidText :=
  ⟨"0f8fad5b-d9cb-469f-a165-70867728950e", by decide⟩

def drawnSecond : UuidText :=
  ⟨"7c9e6679-7425-40de-944b-e07fc1f90ae7", by decide⟩

/- A service that takes these two for identifiers. -/
def twoIdentifiers : BotService where
  demoMode := false
  parseUuid := fun text =>
    if text = drawnFirst then
      some 0x0f8fad5bd9cb469fa16570867728950e
    else if text = drawnSecond then
      some 0x7c9e6679742540de944be07fc1f90ae7
    else
      none

/- The requests of the call whose first connection breaks. -/
def requestsTwice : List SubmitOrderRequest :=
  (sampleClient.submitOrder sampleManualOrder
    [brokenConnection drawnFirst 0,
      brokenConnection drawnSecond 1]).requests

/- Each of them is handled, from its arrival to its acceptance. -/
def handledTwice : List (Machine.Choice GrpcOutcome GrpcExt) :=
  requestsTwice.mapIdx (fun n req => .ext (.request ⟨n, 0, req⟩)) ++
    [(0, "a"), (1, "b")].flatMap fun (tid, orderId) =>
      grpcSteps tid
        [.plain, .delivery .answered, .delivery .answered, .time 0,
          .time 0, .order (.ok orderId), .plain, .delivery .answered]

/-
  The first request is handled, but its connection breaks before
  the response; the second attempt draws another identifier, and
  the engine accepts a second order.
-/
theorem not_retriesIdempotent :
    ¬sampleManualOrder.RetriesIdempotent ∧
      ∃ tr c,
        Machine.Run twoIdentifiers.machine Machine.anyStep
            sampleGrpcState tr c ∧
          acceptedFor twoIdentifiers requestsTwice tr = 2 := by
  have hEncodable : sampleManualOrder.Encodable := by
    unfold SubmitOrderArgs.Encodable
    decide
  refine ⟨not_idempotent_of_drawn (fun _ => rfl) hEncodable, ?_⟩
  rcases Machine.exists_run_of_play twoIdentifiers.machine
    sampleGrpcState handledTwice
    (fun tr _ =>
      decide (acceptedFor twoIdentifiers requestsTwice tr = 2))
    (by decide +kernel) with ⟨tr, c, hRun, hShown⟩
  exact ⟨tr, c, hRun, of_decide_eq_true hShown⟩

end Pumpy
