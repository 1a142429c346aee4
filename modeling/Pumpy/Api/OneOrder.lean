import Pumpy.Api.OrderRoute
import Pumpy.Grpc.Retries
import Pumpy.Interleaving.Budget

/-
  Orders that the engine accepts for one order id.  As long as
  nothing is sent again that may have been accepted, there is
  at most one open request for the id, and a handler accepts at
  most one order.

  Key definitions include:
    * `OrderRoute.orders`
    * `OrderRoute.refused`
    * `OrderRoute.Orderly`
    * `OrderRoute.Single`

  The main results are `orders_le_one` and `not_orders_le_one`.
-/

namespace Pumpy

open Interleaving

------------------------------------------------------------
-- A handler accepts one order
------------------------------------------------------------

/- The call by which a handler has an order accepted. -/
def acceptingCall : Prog.Call GrpcOp GrpcOp.Resp → Bool
  | ⟨.submitOrder _ _, .ok _⟩ => true
  | _ => false

section Budget

variable {n p : Nat} {ikey : String} {req : SubmitOrderRequest}

theorem atMost_claimKey :
    (claimKey n p ikey).AtMost acceptingCall 0 := by
  have hUnavailable :
      (claimKey.unavailable p ikey).AtMost acceptingCall 0 :=
    Prog.atMost_act (fun _ => rfl) fun _ => Prog.atMost_done _
  refine Prog.atMost_act (fun _ => rfl) fun hit => ?_
  dsimp only [Prog.bind]
  match hit with
  | some orderId =>
    dsimp only
    split
    · exact Prog.atMost_done _
    · exact Prog.atMost_done _
  | none =>
    refine Prog.atMost_act (fun _ => rfl) fun row => ?_
    dsimp only [Prog.bind]
    match row with
    | .error e => exact hUnavailable
    | .ok (some orderId) =>
      dsimp only
      split
      · exact Prog.atMost_act (fun _ => rfl) fun _ => Prog.atMost_done _
      · exact Prog.atMost_done _
    | .ok none =>
      refine Prog.atMost_act (fun _ => rfl) fun reserved => ?_
      dsimp only [Prog.bind]
      match reserved with
      | .error e => exact hUnavailable
      | .ok false =>
        exact Prog.atMost_act (fun _ => rfl) fun _ => Prog.atMost_done _
      | .ok true => exact Prog.atMost_done _

theorem atMost_place
    {clientOrderId : Option Uuid}
    {orderType : OrderType}
    {side : OrderSide} :
    (BotService.place p req clientOrderId orderType side).AtMost
      acceptingCall 1 := by
  refine Prog.atMost_act (fun _ => rfl) fun _ => ?_
  refine Prog.atMost_act (fun _ => rfl) fun _ => ?_
  refine Prog.atMost_act_succ fun submitted => ?_
  dsimp only [Prog.bind]
  match submitted with
  | .ok orderId =>
    dsimp only
    split
    · exact Prog.atMost_done _
    · refine Prog.atMost_act (fun _ => rfl) fun _ => ?_
      exact Prog.atMost_act (fun _ => rfl) fun _ => Prog.atMost_done _
  | .error e =>
    dsimp only
    split
    · exact Prog.atMost_done _
    · refine Prog.atMost_act (fun _ => rfl) fun _ => ?_
      exact Prog.atMost_act (fun _ => rfl) fun _ => Prog.atMost_done _

/- A handler has at most one order accepted. -/
theorem atMost_submitOrder
    (svc : BotService)
    (n p : Nat)
    (req : SubmitOrderRequest) :
    (svc.submitOrder n p req).AtMost acceptingCall 1 := by
  unfold BotService.submitOrder
  split
  · exact Prog.atMost_done _
  · split
    · exact Prog.atMost_done _
    · dsimp only
      split
      · exact atMost_place
      · refine Prog.AtMost.bind (m := 0) (n := 1) atMost_claimKey
          fun admission => ?_
        cases admission with
        | answer r => exact Prog.atMost_done _
        | proceed => exact atMost_place

end Budget

/- The handler that has an order accepted by the event. -/
def acceptor : GrpcEvent → Option Nat
  | .op tid op _ r => if acceptingCall ⟨op, r⟩ then some tid else none
  | .ext _ => none

/- Along a run a handler accepts at most one order. -/
theorem countP_acceptor_le_one
    {svc : BotService} {s₀ : GrpcState} {tr : List GrpcEvent}
    {c : GrpcConfig}
    (hRun : Machine.Run svc.machine Machine.anyStep s₀ tr c)
    (tid : Nat) :
    tr.countP (fun e => acceptor e = some tid) ≤ 1 := by
  have hCalls :=
    hRun.countP_calls_le (q := acceptingCall) (n := 1)
      (fun root => atMost_submitOrder svc _ _ root.req) tid
  unfold Machine.calls at hCalls
  rw [List.countP_filterMap] at hCalls
  refine Nat.le_trans (List.countP_mono_left fun e _ hIs => ?_) hCalls
  have hIs := of_decide_eq_true hIs
  cases e with
  | ext ext => cases hIs
  | op tid' op env r =>
    simp only [acceptor] at hIs
    split at hIs
    · rename_i hAccepting
      cases hIs
      simp [Machine.callOf, hAccepting]
    · cases hIs

------------------------------------------------------------
-- What is promised, and when
------------------------------------------------------------

def Fate.handler : Fate → Option Nat
  | handled tid => some tid
  | _ => none

/- What a route waits for, if anything is under way on it. -/
def Route.load : Route → Option (Option Nat)
  | grpc call => some (some call)
  | between _ _ => some none
  | attempt _ _ call => some (some call)
  | finished _ => none

/- The handler has returned, or has been dropped. -/
def GrpcTask.isOver (task : GrpcTask) : Bool :=
  match task.prog with
  | some (.act _ _) => false
  | _ => true

namespace OrderRoute

/- The handlers of the requests for the order id. -/
def handlers (s : OrderRoute) : List Nat :=
  s.calls.filterMap fun call => call.fate.handler

/- How many orders the engine has accepted for it. -/
def orders (s : OrderRoute) : Nat :=
  s.trace.countP fun e => (acceptor e).any (· ∈ s.handlers)

/- A request has been lost, or handled to the end with no order. -/
def refused (s : OrderRoute) (call : Nat) : Bool :=
  match s.calls[call]? with
  | some ⟨_, .lost⟩ => true
  | some ⟨_, .handled tid⟩ =>
      (s.engine.tasks[tid]?).any GrpcTask.isOver &&
        !s.trace.any fun e => acceptor e = some tid
  | _ => false

/- What is under way for a POST waits for this. -/
def working (s : OrderRoute) (i : Nat) : Option (Option Nat) :=
  (s.routeOf i).bind Route.load

/- The request may have an order accepted, or has. -/
def Open (s : OrderRoute) (call : Nat) : Prop :=
  call < s.calls.length ∧ s.refused call = false

/-
  A POST that sends a request comes in when nothing is under way
  for an earlier one and all their requests have been refused;
  a call of the engine fails if its request has been refused.
-/
def Orderly (s : OrderRoute) : RouteEvent → Prop
  | .post body drawnCoid drawnTid =>
      (body.read drawnCoid drawnTid).isSome →
        (∀ i < s.posts.length, s.working i = none) ∧
          ∀ call < s.calls.length, s.refused call = true
  | .grpcError i _ _ =>
      ∀ call ∈ (s.working i).join, s.refused call = true
  | .attemptError i _ _ =>
      ∀ call ∈ (s.working i).join, s.refused call = true
  | _ => True

instance (s : OrderRoute) (e : RouteEvent) : Decidable (s.Orderly e) :=
  match e with
  | .post body drawnCoid drawnTid =>
      inferInstanceAs (Decidable
        ((body.read drawnCoid drawnTid).isSome →
          (∀ i < s.posts.length, s.working i = none) ∧
            ∀ call < s.calls.length, s.refused call = true))
  | .grpcError i _ _ =>
      inferInstanceAs (Decidable
        (∀ call ∈ (s.working i).join, s.refused call = true))
  | .attemptError i _ _ =>
      inferInstanceAs (Decidable
        (∀ call ∈ (s.working i).join, s.refused call = true))
  | .arrive _ _ => .isTrue trivial
  | .lose _ => .isTrue trivial
  | .engine _ => .isTrue trivial
  | .touch _ => .isTrue trivial
  | .grpcReply _ => .isTrue trivial
  | .attempt _ _ _ _ => .isTrue trivial
  | .attemptReply _ _ => .isTrue trivial
  | .pythonReply _ => .isTrue trivial
  | .pythonError _ => .isTrue trivial
  | .stop _ => .isTrue trivial

section Steps

variable {svc : BotService} {toUInt64 : F64 → UInt64} {id : String}
variable {s s' : OrderRoute} {e : RouteEvent} {i call : Nat}

------------------------------------------------------------
-- Small changes
------------------------------------------------------------

theorem routeOf_reroute
    (i j : Nat)
    (route : Route) :
    (s.reroute i route).routeOf j =
      if j = i then (s.routeOf i).map fun _ => route
      else s.routeOf j := by
  unfold routeOf reroute
  rw [List.getElem?_modify]
  split
  · rename_i hSame
    rw [if_pos hSame.symm, hSame]
    simp [Function.comp_def]
  · rename_i hOther
    rw [if_neg (Ne.symm hOther)]
    simp

theorem routeOf_respond
    (i j : Nat)
    (response : PostedOrder → PostResponse) :
    (s.respond i response).routeOf j = s.routeOf j := by
  unfold routeOf respond
  rw [List.getElem?_modify]
  split
  · simp [Function.comp_def]
  · simp

theorem working_respond
    (i j : Nat)
    (response : PostedOrder → PostResponse) :
    (s.respond i response).working j = s.working j := by
  unfold working
  rw [routeOf_respond]

theorem working_reroute_other
    {i j : Nat}
    (route : Route)
    (hOther : j ≠ i) :
    (s.reroute i route).working j = s.working j := by
  unfold working
  rw [routeOf_reroute, if_neg hOther]

theorem working_reroute_self
    {route₀ : Route}
    (route : Route)
    (hRoute : s.routeOf i = some route₀) :
    (s.reroute i route).working i = route.load := by
  unfold working
  rw [routeOf_reroute, if_pos rfl, hRoute]
  rfl

theorem working_of_routeOf
    {route : Route}
    (hRoute : s.routeOf i = some route) :
    s.working i = route.load := by
  unfold working
  rw [hRoute]
  rfl

theorem Open.not_refused
    (hOpen : s.Open call) :
    s.refused call ≠ true := by
  rw [hOpen.2]
  decide

/- The request that is sent is the only one open anew. -/
theorem open_send
    {req : SubmitOrderRequest}
    (hOpen : (s.send req).Open call) :
    s.Open call ∨ call = s.calls.length := by
  by_cases hLt : call < s.calls.length
  · refine .inl ⟨hLt, ?_⟩
    have hRefused := hOpen.2
    unfold refused send at hRefused
    dsimp only at hRefused
    rw [List.getElem?_append_left hLt] at hRefused
    exact hRefused
  · have hLe : call < s.calls.length + 1 := by
      simpa [send] using hOpen.1
    exact .inr (by omega)

------------------------------------------------------------
-- Steps of the engine
------------------------------------------------------------

/- A handler that is over takes no step, and stays over. -/
theorem over_of_step
    {c c' : GrpcConfig} {e : GrpcEvent} {tid : Nat} {task : GrpcTask}
    (hStep : Machine.Step svc.machine c e c')
    (hTask : c.tasks[tid]? = some task)
    (hOver : task.isOver = true) :
    acceptor e ≠ some tid ∧ (c'.tasks[tid]?).any GrpcTask.isOver := by
  have hLt := (List.getElem?_eq_some_iff.mp hTask).1
  cases hStep with
  | @op s s' tasks tid' root op k env r hOther hExec =>
    have hNe : tid' ≠ tid := by
      rintro rfl
      rw [hOther] at hTask
      cases hTask
      cases hOver
    constructor
    · simp only [acceptor]
      split
      · exact fun hSame => hNe (Option.some.inj hSame)
      · exact nofun
    · rw [List.getElem?_append_left (by simpa using hLt),
        List.getElem?_set_ne hNe]
      exact (Option.any_eq_true _ _).mpr ⟨task, hTask, hOver⟩
  | @ext s s' tasks ext hExt =>
    refine ⟨nofun, ?_⟩
    rw [List.getElem?_append_left (by simpa using hLt),
      List.getElem?_mapIdx]
    have hTask : tasks[tid]? = some task := hTask
    refine (Option.any_eq_true _ _).mpr
      ⟨svc.machine.survive ext tid task, by rw [hTask]; rfl, ?_⟩
    unfold Machine.survive
    split
    · rfl
    · exact hOver

/- What a step of the engine leaves as it is. -/
theorem stepEngine_frame
    {ch : Machine.Choice GrpcOutcome GrpcExt}
    (hStep : s.stepEngine svc ch = some s') :
    ∃ e,
      Machine.Step svc.machine s.engine e s'.engine ∧
        s'.trace = s.trace ++ [e] ∧ s'.calls = s.calls ∧
          s'.posts = s.posts := by
  unfold stepEngine at hStep
  split at hStep
  · rename_i e engine hPlay
    cases hStep
    exact ⟨e, Machine.playOne_step hPlay, rfl, rfl, rfl⟩
  · cases hStep

/- What is refused stays refused. -/
theorem refused_stepEngine
    {ch : Machine.Choice GrpcOutcome GrpcExt}
    (hStep : s.stepEngine svc ch = some s')
    (hRefused : s.refused call = true) :
    s'.refused call = true := by
  rcases stepEngine_frame hStep with ⟨e, hEngine, hTrace, hCalls, _⟩
  unfold refused at hRefused ⊢
  rw [hCalls, hTrace]
  split at hRefused
  · rfl
  · rename_i req tid hCall
    rcases Bool.and_eq_true_iff.mp hRefused with ⟨hAny, hNone⟩
    rcases (Option.any_eq_true _ _).mp hAny with ⟨task, hTask, hOver⟩
    rcases over_of_step hEngine hTask hOver with ⟨hOther, hStill⟩
    simp only [List.any_append, List.any_cons, List.any_nil,
      Bool.or_false, Bool.not_or, Bool.and_eq_true]
    exact ⟨hStill, hNone, by simpa using hOther⟩
  · cases hRefused

------------------------------------------------------------
-- What a step does
------------------------------------------------------------

/- At most one request is open, and who works waits for it. -/
structure Single (s : OrderRoute) : Prop where
  alone :
    ∀ i j, s.working i ≠ none → s.working j ≠ none → i = j
  awaits :
    ∀ i w call, s.working i = some w → s.Open call → w = some call
  one : ∀ call call', s.Open call → s.Open call' → call = call'

/-
  A step opens nothing and puts nothing under way; or nothing is
  open before it, and after it at most what one POST waits for.
-/
inductive Effect (s s' : OrderRoute) : Prop
  | quiet
      (hOpen : ∀ call, s'.Open call → s.Open call)
      (hWorking :
        ∀ i w, s'.working i = some w → s.working i = some w)
  | moves
      (i : Nat)
      (hAlone : ∀ j, j ≠ i → s'.working j = none)
      (hOpen : ∀ call, s'.Open call → s'.working i = some (some call))

theorem Effect.respond
    (hEffect : Effect s s')
    (i : Nat)
    (response : PostedOrder → PostResponse) :
    Effect s (s'.respond i response) := by
  cases hEffect with
  | quiet hOpen hWorking =>
    refine .quiet (fun call hCall => hOpen call hCall) fun j w hW => ?_
    rw [working_respond] at hW
    exact hWorking j w hW
  | moves k hAlone hOpen =>
    refine .moves k (fun j hOther => ?_) fun call hCall => ?_
    · rw [working_respond]
      exact hAlone j hOther
    · rw [working_respond]
      exact hOpen call hCall

theorem Single.effect
    (hSingle : Single s)
    (hEffect : Effect s s') :
    Single s' := by
  cases hEffect with
  | quiet hOpen hWorking =>
    have hWas : ∀ i, s'.working i ≠ none → s.working i ≠ none := by
      intro i hNow
      rcases Option.ne_none_iff_exists'.mp hNow with ⟨w, hW⟩
      rw [hWorking i w hW]
      exact Option.some_ne_none w
    constructor
    · intro i j hI hJ
      exact hSingle.alone i j (hWas i hI) (hWas j hJ)
    · intro i w call hW hCall
      exact hSingle.awaits i w call (hWorking i w hW) (hOpen call hCall)
    · intro call call' hCall hCall'
      exact hSingle.one call call' (hOpen call hCall) (hOpen call' hCall')
  | moves k hAlone hOpen =>
    have hIs : ∀ i, s'.working i ≠ none → i = k := by
      intro i hNow
      by_contra hOther
      exact hNow (hAlone i hOther)
    constructor
    · intro i j hI hJ
      rw [hIs i hI, hIs j hJ]
    · intro i w call hW hCall
      have hSame : i = k := hIs i (by rw [hW]; exact Option.some_ne_none w)
      rw [hSame, hOpen call hCall] at hW
      exact (Option.some.inj hW).symm
    · intro call call' hCall hCall'
      have hBoth := (hOpen call hCall).symm.trans (hOpen call' hCall')
      exact Option.some.inj (Option.some.inj hBoth)

/- What is under way for a POST comes to its end. -/
theorem effect_finished
    (client : BotGrpcClient)
    (i : Nat)
    (python : Option OrderResult) :
    Effect s
      (({ s with client := client } : OrderRoute).reroute i
        (.finished python)) := by
  refine .quiet (fun call hOpen => hOpen) fun j w hW => ?_
  by_cases hSame : j = i
  · unfold working at hW
    rw [routeOf_reroute, if_pos hSame] at hW
    rcases Option.bind_eq_some_iff.mp hW with ⟨route, hRoute, hLoad⟩
    rcases Option.map_eq_some_iff.mp hRoute with ⟨_, _, rfl⟩
    cases hLoad
  · rw [working_reroute_other _ hSame] at hW
    exact hW

/- It goes on, with nothing open. -/
theorem effect_goesOn
    (hSingle : Single s)
    (hWorking : s.working i ≠ none)
    (hNone : ∀ call, ¬s.Open call)
    (client : BotGrpcClient)
    (route : Route) :
    Effect s
      (({ s with client := client } : OrderRoute).reroute i route) := by
  refine .moves i (fun j hOther => ?_) fun call hOpen =>
    absurd hOpen (hNone call)
  rw [working_reroute_other _ hOther]
  by_contra hBusy
  exact hOther (hSingle.alone j i hBusy hWorking)

/- It sends a request, with nothing open. -/
theorem effect_sends
    {route₀ route : Route}
    {req : SubmitOrderRequest}
    (hSingle : Single s)
    (hRoute : s.routeOf i = some route₀)
    (hWorking : s.working i ≠ none)
    (hNone : ∀ call, ¬s.Open call)
    (client : BotGrpcClient)
    (hLoad : route.load = some (some s.calls.length)) :
    Effect s
      ((({ s with client := client } : OrderRoute).send req).reroute i
        route) := by
  refine .moves i (fun j hOther => ?_) fun call hOpen => ?_
  · rw [working_reroute_other _ hOther]
    by_contra hBusy
    exact hOther (hSingle.alone j i hBusy hWorking)
  · have hSent :
        (({ s with client := client } : OrderRoute).send req).routeOf i =
          some route₀ :=
      hRoute
    rw [working_reroute_self _ hSent, hLoad]
    rcases open_send hOpen with hWas | rfl
    · exact absurd hWas (hNone call)
    · rfl

/- What is awaited has been refused, so nothing is open. -/
theorem none_open
    (hSingle : Single s)
    {w : Option Nat}
    (hWorking : s.working i = some w)
    (hRefused : ∀ call ∈ w, s.refused call = true) :
    ∀ call, ¬s.Open call := by
  intro call hOpen
  have hAwaits := hSingle.awaits i w call hWorking hOpen
  exact hOpen.not_refused (hRefused call hAwaits)

/- A call that is flying is open. -/
theorem open_of_flying
    {req : SubmitOrderRequest}
    (hCall : s.calls[call]? = some ⟨req, .flying⟩) :
    s.Open call := by
  refine ⟨(List.getElem?_eq_some_iff.mp hCall).1, ?_⟩
  unfold refused
  rw [hCall]

/- A call that was flying comes to something. -/
theorem open_meet
    {req : SubmitOrderRequest} {fate : Fate} {call' : Nat}
    (hCall : s.calls[call]? = some ⟨req, .flying⟩)
    (hOpen : (s.meet call fate).Open call') :
    s.Open call' := by
  by_cases hSame : call' = call
  · rw [hSame]
    exact open_of_flying hCall
  · have hLt : call' < s.calls.length := by
      simpa [meet] using hOpen.1
    refine ⟨hLt, ?_⟩
    have hRefused := hOpen.2
    unfold refused meet at hRefused
    dsimp only at hRefused
    rw [List.getElem?_modify] at hRefused
    simp only [if_neg (Ne.symm hSame), Option.map_eq_map,
      Option.map_id'] at hRefused
    exact hRefused

theorem open_stepEngine
    {ch : Machine.Choice GrpcOutcome GrpcExt}
    (hStep : s.stepEngine svc ch = some s')
    (hOpen : s'.Open call) :
    s.Open call := by
  rcases stepEngine_frame hStep with ⟨_, _, _, hCalls, _⟩
  refine ⟨by rw [← hCalls]; exact hOpen.1, ?_⟩
  rw [← Bool.not_eq_true]
  exact fun hRefused =>
    hOpen.not_refused (refused_stepEngine hStep hRefused)

theorem working_stepEngine
    {ch : Machine.Choice GrpcOutcome GrpcExt}
    (hStep : s.stepEngine svc ch = some s')
    (i : Nat) :
    s'.working i = s.working i := by
  rcases stepEngine_frame hStep with ⟨_, _, _, _, hPosts⟩
  unfold working routeOf
  rw [hPosts]

/- A POST that is taken in. -/
theorem effect_post
    {order : PostedOrder} {req : SubmitOrderRequest}
    (hIdle : ∀ i < s.posts.length, s.working i = none)
    (hNone : ∀ call < s.calls.length, s.refused call = true) :
    Effect s
      { s.send req with
        posts := s.posts ++ [⟨order, .grpc s.calls.length, none⟩] } := by
  refine .moves s.posts.length (fun j hOther => ?_) fun call hOpen => ?_
  · by_cases hLt : j < s.posts.length
    · have hWas := hIdle j hLt
      unfold working routeOf at hWas ⊢
      rwa [List.getElem?_append_left hLt]
    · unfold working routeOf
      rw [List.getElem?_eq_none (by simp; omega)]
      rfl
  · have hSent : (s.send req).Open call := hOpen
    rcases open_send hSent with hWas | rfl
    · exact absurd (hNone call hWas.1) hWas.not_refused
    · unfold working routeOf
      simp [Route.load]

/- A request comes to the engine while its call is flying. -/
theorem effect_arrive
    {p : Nat}
    (hStep : step svc toUInt64 id s (.arrive call p) = some s') :
    Effect s s' := by
  simp only [step] at hStep
  split at hStep
  · rename_i req hCall
    rcases Option.map_eq_some_iff.mp hStep with ⟨s₁, hEngine, rfl⟩
    rcases stepEngine_frame hEngine with ⟨_, _, _, hCalls, _⟩
    have hCall₁ : s₁.calls[call]? = some ⟨req, .flying⟩ := by
      rw [hCalls]
      exact hCall
    refine .quiet (fun call' hOpen => ?_) fun i w hW => ?_
    · exact open_stepEngine hEngine (open_meet hCall₁ hOpen)
    · rw [← working_stepEngine hEngine]
      exact hW
  · cases hStep

/- The direct call has failed, and the fallback goes on. -/
theorem effect_grpcError
    {arrives : Bool} {drawnTid : UuidText}
    (hSingle : Single s)
    (hOrderly : s.Orderly (.grpcError i arrives drawnTid))
    (hStep :
      step svc toUInt64 id s (.grpcError i arrives drawnTid) =
        some s') :
    Effect s s' := by
  simp only [step] at hStep
  split at hStep
  · rename_i order call response hPost
    cases hStep
    have hWorking : s.working i = some (some call) := by
      unfold working routeOf
      rw [hPost]
      rfl
    refine effect_goesOn hSingle (by simp [hWorking]) ?_ s.client _
    refine none_open hSingle hWorking fun call' hMem => ?_
    exact hOrderly call' (by rw [hWorking]; exact hMem)
  · cases hStep

/- An attempt ends the fallback, waits, or sends a request. -/
theorem effect_attempt
    {now : Seconds} {drawnCoid drawnTid : UuidText}
    (hSingle : Single s)
    (hStep :
      step svc toUInt64 id s (.attempt i now drawnCoid drawnTid) =
        some s') :
    Effect s s' := by
  simp only [step] at hStep
  split at hStep
  · rename_i args made hRoute
    have hWorking : s.working i = some none := working_of_routeOf hRoute
    have hNone := none_open hSingle hWorking (by simp)
    split at hStep
    · cases hStep
      exact effect_finished _ i _
    · cases hStep
      exact effect_goesOn hSingle (by simp [hWorking]) hNone _ _
    · cases hStep
      exact effect_sends hSingle hRoute (by simp [hWorking]) hNone _ rfl
  · cases hStep

/- An attempt has failed, and its request with it. -/
theorem effect_attemptError
    {error : BotGrpcClient.CallError} {now : Seconds}
    (hSingle : Single s)
    (hOrderly : s.Orderly (.attemptError i error now))
    (hStep :
      step svc toUInt64 id s (.attemptError i error now) = some s') :
    Effect s s' := by
  simp only [step] at hStep
  split at hStep
  · rename_i args made call hRoute
    have hWorking : s.working i = some (some call) :=
      working_of_routeOf hRoute
    split at hStep
    · cases hStep
      refine effect_goesOn hSingle (by simp [hWorking]) ?_ _ _
      refine none_open hSingle hWorking fun call' hMem => ?_
      exact hOrderly call' (by rw [hWorking]; exact hMem)
    · cases hStep
  · cases hStep

/- What only answers a POST opens nothing. -/
theorem effect_respond
    (i : Nat)
    (response : PostedOrder → PostResponse) :
    Effect s (s.respond i response) :=
  Effect.respond (.quiet (fun _ hOpen => hOpen) fun _ _ hW => hW) i _

/- What a step does, if it is orderly. -/
theorem effect_of_step
    (hSingle : Single s)
    (hOrderly : s.Orderly e)
    (hStep : step svc toUInt64 id s e = some s') :
    Effect s s' := by
  cases e with
  | post body drawnCoid drawnTid =>
    simp only [step] at hStep
    split at hStep
    · split at hStep
      · rename_i order hRead
        cases hStep
        have hBoth := hOrderly (by rw [hRead]; rfl)
        exact effect_post hBoth.1 hBoth.2
      · cases hStep
        exact .quiet (fun _ hOpen => hOpen) fun _ _ hW => hW
    · cases hStep
  | arrive call p => exact effect_arrive hStep
  | lose call =>
    simp only [step] at hStep
    split at hStep
    · rename_i req hCall
      cases hStep
      exact .quiet (fun call' hOpen => open_meet hCall hOpen)
        fun i w hW => hW
    · cases hStep
  | engine ch =>
    refine .quiet (fun call hOpen => open_stepEngine hStep hOpen)
      fun i w hW => ?_
    rwa [← working_stepEngine hStep]
  | touch ev =>
    cases hStep
    exact .quiet (fun _ hOpen => hOpen) fun _ _ hW => hW
  | grpcReply i =>
    simp only [step] at hStep
    split at hStep
    · split at hStep
      · cases hStep
        exact (effect_finished s.client i none).respond i _
      · cases hStep
    · cases hStep
  | grpcError i arrives drawnTid =>
    exact effect_grpcError hSingle hOrderly hStep
  | attempt i now drawnCoid drawnTid =>
    exact effect_attempt hSingle hStep
  | attemptReply i now =>
    simp only [step] at hStep
    split at hStep
    · split at hStep
      · cases hStep
        exact effect_finished _ i _
      · cases hStep
    · cases hStep
  | attemptError i error now =>
    exact effect_attemptError hSingle hOrderly hStep
  | pythonReply i =>
    simp only [step] at hStep
    split at hStep
    · cases hStep
      exact effect_respond i _
    · cases hStep
  | pythonError i =>
    simp only [step] at hStep
    split at hStep
    · cases hStep
    · cases hStep
      exact effect_respond i _
    · cases hStep
  | stop i =>
    cases hStep
    exact effect_finished s.client i none

/- In an orderly run at most one request is open at a time. -/
theorem single_of_exec
    {engine : GrpcState} {client : BotGrpcClient}
    {es : List RouteEvent}
    (hMeets :
      (system svc toUInt64 id).Meets Orderly (start engine client) es)
    (hExec :
      (system svc toUInt64 id).exec (start engine client) es = some s) :
    Single s := by
  refine (system svc toUInt64 id).exec_invariant
    (P := fun _ s => Single s) ?_ ?_ hMeets hExec
  · constructor
    · intro i j hI
      exact absurd rfl hI
    · intro i w call hW
      cases hW
    · intro call call' hCall
      exact absurd hCall.1 (Nat.not_lt_zero call)
  · intro es s e s' _ hSingle hOrderly hStep
    exact hSingle.effect (effect_of_step hSingle hOrderly hStep)

------------------------------------------------------------
-- Runs of the engine
------------------------------------------------------------

/- What happens at the engine is a run of its handlers. -/
theorem trace_step
    {engine : GrpcState}
    (hRun :
      Machine.Run svc.machine Machine.anyStep engine s.trace s.engine)
    (hStep : step svc toUInt64 id s e = some s') :
    Machine.Run svc.machine Machine.anyStep engine s'.trace
      s'.engine := by
  have hEngine :
      ∀ ch s₁,
        s.stepEngine svc ch = some s₁ →
          Machine.Run svc.machine Machine.anyStep engine s₁.trace
            s₁.engine := by
    intro ch s₁ hStep
    rcases stepEngine_frame hStep with ⟨ev, hMoves, hTrace, _⟩
    rw [hTrace]
    exact .snoc hRun trivial hMoves
  cases e with
  | engine ch => exact hEngine ch s' hStep
  | arrive call p =>
    simp only [step] at hStep
    split at hStep
    · rcases Option.map_eq_some_iff.mp hStep with ⟨s₁, hMoves, rfl⟩
      exact hEngine _ s₁ hMoves
    · cases hStep
  | _ =>
    simp only [step] at hStep
    repeat' split at hStep
    all_goals
      cases hStep
      try exact hRun

theorem trace_of_exec
    {engine : GrpcState} {client : BotGrpcClient}
    {es : List RouteEvent}
    (hExec :
      (system svc toUInt64 id).exec (start engine client) es = some s) :
    Machine.Run svc.machine Machine.anyStep engine s.trace s.engine :=
  (system svc toUInt64 id).exec_induction
    (P := fun _ s =>
      Machine.Run svc.machine Machine.anyStep engine s.trace s.engine)
    .nil (fun _ _ _ _ _ hRun hStep => trace_step hRun hStep) hExec

------------------------------------------------------------
-- One order
------------------------------------------------------------

/- Who accepts an order for the id handles an open request. -/
theorem open_of_accepted
    {ev : GrpcEvent} {tid : Nat}
    (hMem : ev ∈ s.trace)
    (hAccepts : acceptor ev = some tid)
    (hHandler : tid ∈ s.handlers) :
    ∃ call req,
      s.calls[call]? = some ⟨req, .handled tid⟩ ∧ s.Open call := by
  rcases List.mem_filterMap.mp hHandler with ⟨⟨req, fate⟩, hCall, hFate⟩
  rcases List.mem_iff_getElem?.mp hCall with ⟨call, hAt⟩
  cases fate with
  | flying => cases hFate
  | lost => cases hFate
  | handled tid' =>
    cases hFate
    refine ⟨call, req, hAt, (List.getElem?_eq_some_iff.mp hAt).1, ?_⟩
    have hAny :
        (s.trace.any fun e => decide (acceptor e = some tid)) = true :=
      List.any_eq_true.mpr ⟨ev, hMem, decide_eq_true hAccepts⟩
    unfold refused
    rw [hAt]
    simp only [hAny, Bool.not_true, Bool.and_false]

/- If one request is open, one order has been accepted at most. -/
theorem orders_of_single
    {engine : GrpcState}
    (hSingle : Single s)
    (hRun :
      Machine.Run svc.machine Machine.anyStep engine s.trace s.engine) :
    s.orders ≤ 1 := by
  have hOurs :
      ∀ ev,
        (acceptor ev).any (· ∈ s.handlers) = true →
          ∃ tid, acceptor ev = some tid ∧ tid ∈ s.handlers := by
    intro ev hAny
    rcases (Option.any_eq_true _ _).mp hAny with ⟨tid, hIs, hMem⟩
    exact ⟨tid, hIs, of_decide_eq_true hMem⟩
  by_cases hSome :
      ∃ ev ∈ s.trace, (acceptor ev).any (· ∈ s.handlers) = true
  · rcases hSome with ⟨ev, hMem, hAny⟩
    rcases hOurs ev hAny with ⟨tid, hIs, hHandler⟩
    rcases open_of_accepted hMem hIs hHandler with
      ⟨call, req, hAt, hOpen⟩
    refine Nat.le_trans (List.countP_mono_left fun ev' hMem' hAny' => ?_)
      (countP_acceptor_le_one hRun tid)
    rcases hOurs ev' hAny' with ⟨tid', hIs', hHandler'⟩
    rcases open_of_accepted hMem' hIs' hHandler' with
      ⟨call', req', hAt', hOpen'⟩
    rw [hSingle.one call' call hOpen' hOpen, hAt] at hAt'
    cases hAt'
    exact decide_eq_true hIs'
  · have hZero : s.orders = 0 := by
      unfold orders
      rw [List.countP_eq_zero]
      exact fun ev hMem hAny => hSome ⟨ev, hMem, hAny⟩
    rw [hZero]
    exact Nat.zero_le 1

end Steps

end OrderRoute

open OrderRoute

/-
  In every orderly run the engine accepts at most one order for
  the id, whatever is delayed or lost and whichever handlers are
  dropped.
-/
theorem orders_le_one
    (svc : BotService)
    (toUInt64 : F64 → UInt64)
    (id : String)
    (engine : GrpcState)
    (client : BotGrpcClient)
    {es : List RouteEvent}
    {s : OrderRoute}
    (hMeets :
      (system svc toUInt64 id).Meets Orderly (start engine client) es)
    (hExec :
      (system svc toUInt64 id).exec (start engine client) es = some s) :
    s.orders ≤ 1 :=
  orders_of_single (single_of_exec hMeets hExec) (trace_of_exec hExec)

/- A market buy of one SOL, under the id. -/
def sampleBody : OrderBody where
  tokenMint := some "mint"
  side := some "BUY"
  amountSol := some (.fin 1)
  orderType := none
  slippageBps := none
  strategyName := none
  clientOrderId := some drawnFirst
  traceId := none

/- The order is posted, and its call of the engine fails. -/
def postedSample (meanwhile : List RouteEvent) : List RouteEvent :=
  .post sampleBody drawnFirst drawnFirst ::
    (meanwhile ++ [.grpcError 0 true drawnFirst])

/- A request is handled, from its arrival to its acceptance. -/
def handledSample
    (call tid : Nat)
    (outs : List GrpcOutcome) : List RouteEvent :=
  .arrive call 0 :: outs.map fun out => .engine (.task tid out)

/- How a handler of a request with a key comes to accept it. -/
def keyedOutcomes (orderId : OrderId) : List GrpcOutcome :=
  [.plain, .delivery .answered, .delivery .answered, .time 0, .time 0,
    .order (.ok orderId), .plain, .delivery .answered]

/- The parties, with that order's id. -/
def sampleRoute : Transition RouteEvent OrderRoute :=
  system twoIdentifiers F64.toUInt64 drawnFirst

/- The first request is lost; the order is accepted by way of Python. -/
def lostRequest : List RouteEvent :=
  postedSample [.lose 0] ++
    [.attempt 0 0 drawnSecond drawnSecond] ++
      handledSample 1 0 (keyedOutcomes "a") ++ [.attemptReply 0 0]

theorem orders_lostRequest :
    ∃ s,
      sampleRoute.exec (start sampleGrpcState sampleClient)
          lostRequest = some s ∧
        s.orders = 1 ∧ s.orders ≤ 1 := by
  have hMeets :
      sampleRoute.Meets Orderly (start sampleGrpcState sampleClient)
        lostRequest :=
    Transition.meets_of_check (by decide +kernel)
  rcases Transition.exists_exec_of_any sampleRoute
    (start sampleGrpcState sampleClient) lostRequest
    (fun s => decide (s.orders = 1)) (by decide +kernel) with
    ⟨s, hExec, hOne⟩
  exact ⟨s, hExec, of_decide_eq_true hOne,
    orders_le_one _ _ _ _ _ hMeets hExec⟩

/-
  The engine accepts the order, but its answer is lost; the
  handler falls back to Python, whose request has a key of its
  own, and the engine accepts that too.
-/
def lostReply : List RouteEvent :=
  postedSample
      (handledSample 0 0 [.time 0, .time 0, .order (.ok "a")]) ++
    [.attempt 0 0 drawnSecond drawnSecond] ++
      handledSample 1 1 (keyedOutcomes "b")

theorem not_orders_le_one :
    ∃ s,
      sampleRoute.exec (start sampleGrpcState sampleClient)
          lostReply = some s ∧
        s.orders = 2 := by
  rcases Transition.exists_exec_of_any sampleRoute
    (start sampleGrpcState sampleClient) lostReply
    (fun s => decide (s.orders = 2)) (by decide +kernel) with
    ⟨s, hExec, hTwo⟩
  exact ⟨s, hExec, of_decide_eq_true hTwo⟩

end Pumpy
