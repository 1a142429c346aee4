import Pumpy.Grpc.Service
import Pumpy.Interleaving.Population

/-
  This file defines the stages a handler of a keyed request
  goes through, and shows that the service's handlers go
  through them.

  Key definitions include:
    * `GrpcHandler`
    * `KeyStage`
    * `GrpcPhase`
    * `GrpcMove`
    * `handling`

  The main result is `BotService.follows`.
-/

------------------------------------------------------------
-- Stages
------------------------------------------------------------

namespace Pumpy

open Interleaving

/- Who handles a request, and its key. -/
structure GrpcHandler where
  number : Nat
  process : Nat
  key : String
deriving DecidableEq

def GrpcRoot.handler (root : GrpcRoot) : GrpcHandler where
  number := root.number
  process := root.process
  key := root.req.idempotencyKey

/- How a handler of a keyed request has answered. -/
inductive Ending where
  | acknowledged | existing | submitted | refused | unavailable
deriving DecidableEq, Repr

/- The endings with `success: true`. -/
def Ending.succeeds : Ending → Bool
  | acknowledged => true
  | existing => true
  | submitted => true
  | refused => false
  | unavailable => false

/-
  How far a handler of a keyed request is: it has placed its
  placeholder, has not found the key in the table, has
  reserved it, and so on.
-/
inductive KeyStage where
  | start : KeyStage
  | placed : KeyStage
  | checked : KeyStage
  | reserved : KeyStage
  | accepted (orderId : OrderId) : KeyStage
  | storing (orderId : OrderId) : KeyStage
  | rejected : KeyStage
  | releasing : KeyStage
  | failing : KeyStage
  | outraced : KeyStage
  | found (orderId : OrderId) : KeyStage
  | closed (ending : Ending) : KeyStage
deriving DecidableEq

namespace KeyStage

def afterLookup : Option OrderId → KeyStage
  | none => placed
  | some orderId =>
      if orderId ≠ "" then closed .existing else closed .acknowledged

def afterCheck : Except DbError (Option OrderId) → KeyStage
  | .error _ => failing
  | .ok none => checked
  | .ok (some orderId) =>
      if orderId ≠ "" then found orderId else closed .acknowledged

def afterReserve : Except DbError Bool → KeyStage
  | .error _ => failing
  | .ok false => outraced
  | .ok true => reserved

def afterSubmit : Except OrderError OrderId → KeyStage
  | .ok orderId => accepted orderId
  | .error _ => rejected

end KeyStage

/- How a request without a key ends. -/
def Ending.ofOrder : Except OrderError OrderId → Ending
  | .ok _ => submitted
  | .error _ => refused

/- The phases of a handler; without a key it only has an ending. -/
inductive GrpcPhase where
  | unkeyed (ending : Option Ending) : GrpcPhase
  | keyed (h : GrpcHandler) (stage : KeyStage) : GrpcPhase

/- The phase is one of the handler that started at `root`. -/
def GrpcPhase.Names (root : GrpcRoot) : GrpcPhase → Prop
  | unkeyed _ => root.req.idempotencyKey = ""
  | keyed h _ => h = root.handler ∧ root.req.idempotencyKey ≠ ""

------------------------------------------------------------
-- Moves
------------------------------------------------------------

open KeyStage in
/- What a handler may execute in a phase, and where it leads. -/
inductive GrpcMove :
    GrpcPhase → (op : GrpcOp) → op.Resp → GrpcPhase → Prop
  | now
      {t : Timestamp} :
      GrpcMove (.unkeyed none) .utcNow t (.unkeyed none)
  | submit
      {p : Nat} {o : Order} {r : Except OrderError OrderId} :
      GrpcMove (.unkeyed none) (.submitOrder p o) r
        (.unkeyed (some (.ofOrder r)))
  | lookup
      {h : GrpcHandler} {hit : Option OrderId} :
      GrpcMove (.keyed h start)
        (.cache h.process (.lookup h.key h.number)) hit
        (.keyed h (afterLookup hit))
  | check
      {h : GrpcHandler} {row : Except DbError (Option OrderId)} :
      GrpcMove (.keyed h placed) (.key (.check h.key)) row
        (.keyed h (afterCheck row))
  | reserve
      {h : GrpcHandler} {r : Except DbError Bool} :
      GrpcMove (.keyed h checked) (.key (.reserve h.key h.number)) r
        (.keyed h (afterReserve r))
  | build
      {h : GrpcHandler} {t : Timestamp} :
      GrpcMove (.keyed h reserved) .utcNow t (.keyed h reserved)
  | place
      {h : GrpcHandler} {o : Order} {r : Except OrderError OrderId} :
      GrpcMove (.keyed h reserved) (.submitOrder h.process o) r
        (.keyed h (afterSubmit r))
  | store
      {h : GrpcHandler} {orderId : OrderId} :
      GrpcMove (.keyed h (accepted orderId))
        (.cache h.process (.setOrderId h.key orderId)) ()
        (.keyed h (storing orderId))
  | commit
      {h : GrpcHandler} {orderId : OrderId} {r : Except DbError Unit} :
      GrpcMove (.keyed h (storing orderId))
        (.key (.commit h.key orderId)) r (.keyed h (closed .submitted))
  | withdraw
      {h : GrpcHandler} :
      GrpcMove (.keyed h rejected) (.cache h.process (.remove h.key)) ()
        (.keyed h releasing)
  | release
      {h : GrpcHandler} {r : Except DbError Unit} :
      GrpcMove (.keyed h releasing) (.key (.release h.key)) r
        (.keyed h (closed .refused))
  | fail
      {h : GrpcHandler} :
      GrpcMove (.keyed h failing) (.cache h.process (.remove h.key)) ()
        (.keyed h (closed .unavailable))
  | yield
      {h : GrpcHandler} :
      GrpcMove (.keyed h outraced) (.cache h.process (.remove h.key)) ()
        (.keyed h (closed .acknowledged))
  | recover
      {h : GrpcHandler} {orderId : OrderId} :
      GrpcMove (.keyed h (found orderId))
        (.cache h.process (.setOrderId h.key orderId)) ()
        (.keyed h (closed .existing))

/- A handler starts with its key, if the request has one. -/
def GrpcRoot.phase (root : GrpcRoot) : GrpcPhase :=
  if root.req.idempotencyKey = "" then
    .unkeyed none
  else
    .keyed root.handler .start

/- The protocol of the handlers. -/
def handling : Protocol GrpcOp GrpcOp.Resp GrpcRoot GrpcPhase where
  start := GrpcRoot.phase
  move := GrpcMove
  crash := fun _ => False

/-
  What a handler has returned tells how it has ended; a
  request that is not valid is answered before its key is
  looked at.
-/
def Answers :
    Except Status SubmitOrderResponse → GrpcPhase → Prop
  | r, .unkeyed none => ∃ status, r = .error status
  | .ok response, .unkeyed (some ending) =>
      response.success = ending.succeeds
  | .error _, .unkeyed (some _) => False
  | r, .keyed _ .start => ∃ status, r = .error status
  | .ok response, .keyed _ (.closed ending) =>
      response.success = ending.succeeds
  | .error _, .keyed _ (.closed ending) => ending.succeeds = false
  | _, .keyed _ _ => False

------------------------------------------------------------
-- Conformance
------------------------------------------------------------

section Conformance

variable {h : GrpcHandler} {n p : Nat} {ikey : String}
variable {req : SubmitOrderRequest}

theorem wp_unavailable
    (hHandler : h = ⟨n, p, ikey⟩) :
    handling.Wp (claimKey.unavailable p ikey) (.keyed h .failing)
      fun a g =>
        ∃ r, a = .answer r ∧ Answers r g := by
  subst hHandler
  intro _
  exact ⟨_, .fail, _, rfl, rfl⟩

/- The check of a key answers, or has reserved the key. -/
theorem wp_claimKey
    (hHandler : h = ⟨n, p, ikey⟩) :
    handling.Wp (claimKey n p ikey) (.keyed h .start)
      fun a g =>
        (∃ r, a = .answer r ∧ Answers r g) ∨
          (a = .proceed ∧ g = .keyed h .reserved) := by
  have hFailing :=
    (wp_unavailable hHandler).mono
      (R := fun a g =>
        (∃ r, a = .answer r ∧ Answers r g) ∨
          (a = .proceed ∧ g = .keyed h .reserved))
      fun a g hAnswer => .inl hAnswer
  subst hHandler
  intro hit
  refine ⟨_, .lookup, ?_⟩
  dsimp only [Prog.bind]
  cases hit with
  | some orderId =>
      by_cases hSome : orderId ≠ ""
      · simp only [if_pos hSome, KeyStage.afterLookup]
        exact .inl ⟨_, rfl, rfl⟩
      · simp only [if_neg hSome, KeyStage.afterLookup]
        exact .inl ⟨_, rfl, rfl⟩
  | none =>
      intro row
      refine ⟨_, .check, ?_⟩
      dsimp only [Prog.bind]
      match row with
      | .error e => exact hFailing
      | .ok (some orderId) =>
          by_cases hSome : orderId ≠ ""
          · simp only [if_pos hSome, KeyStage.afterCheck]
            intro _
            exact ⟨_, .recover, .inl ⟨_, rfl, rfl⟩⟩
          · simp only [if_neg hSome, KeyStage.afterCheck]
            exact .inl ⟨_, rfl, rfl⟩
      | .ok none =>
          intro reserved
          refine ⟨_, .reserve, ?_⟩
          dsimp only [Prog.bind]
          match reserved with
          | .error e => exact hFailing
          | .ok false =>
              intro _
              exact ⟨_, .yield, .inl ⟨_, rfl, rfl⟩⟩
          | .ok true => exact .inr ⟨rfl, rfl⟩

/- A handler that has reserved its key settles it. -/
theorem wp_place_keyed
    {clientOrderId : Option Uuid} {orderType : OrderType}
    {side : OrderSide}
    (hHandler : h = ⟨n, p, req.idempotencyKey⟩)
    (hKey : req.idempotencyKey ≠ "") :
    handling.Wp (BotService.place p req clientOrderId orderType side)
      (.keyed h .reserved) Answers := by
  subst hHandler
  intro _
  refine ⟨_, .build, ?_⟩
  intro _
  refine ⟨_, .build, ?_⟩
  intro submitted
  refine ⟨_, .place (h := ⟨n, p, req.idempotencyKey⟩), ?_⟩
  dsimp only [Prog.bind]
  cases submitted with
  | ok orderId =>
      simp only [if_neg hKey, KeyStage.afterSubmit]
      intro _
      refine ⟨_, .store, ?_⟩
      intro _
      exact ⟨_, .commit, rfl⟩
  | error e =>
      simp only [if_neg hKey, KeyStage.afterSubmit]
      intro _
      refine ⟨_, .withdraw, ?_⟩
      intro _
      exact ⟨_, .release, rfl⟩

/- Without a key a handler submits its order, and no more. -/
theorem wp_place_unkeyed
    {clientOrderId : Option Uuid} {orderType : OrderType}
    {side : OrderSide}
    (hKey : req.idempotencyKey = "") :
    handling.Wp (BotService.place p req clientOrderId orderType side)
      (.unkeyed none) Answers := by
  intro _
  refine ⟨_, .now, ?_⟩
  intro _
  refine ⟨_, .now, ?_⟩
  intro submitted
  refine ⟨_, .submit, ?_⟩
  dsimp only [Prog.bind]
  cases submitted with
  | ok orderId =>
      simp only [if_pos hKey]
      rfl
  | error e =>
      simp only [if_pos hKey]
      rfl

end Conformance

/- The handlers of the service follow the protocol. -/
theorem BotService.follows
    (svc : BotService) :
    handling.Follows svc.machine Answers := by
  intro root
  have hRefused :
      ∀ status : Status,
        handling.Wp
          (Prog.done (.error status) :
            GrpcProg (Except Status SubmitOrderResponse))
          root.phase Answers := by
    intro status
    unfold GrpcRoot.phase
    split
    · exact ⟨status, rfl⟩
    · exact ⟨status, rfl⟩
  change handling.Wp (svc.submitOrder _ _ root.req) root.phase Answers
  unfold submitOrder
  split
  · exact hRefused _
  · split
    · exact hRefused _
    · by_cases hKey : root.req.idempotencyKey = ""
      · simp only [if_pos hKey, GrpcRoot.phase]
        exact wp_place_unkeyed hKey
      · simp only [if_neg hKey, GrpcRoot.phase]
        apply (wp_claimKey (h := root.handler) rfl).bind
        rintro a g (⟨r, rfl, hAnswers⟩ | ⟨rfl, rfl⟩)
        · exact hAnswers
        · exact wp_place_keyed rfl hKey

end Pumpy
