import Mathlib.Data.List.Forall2
import Pumpy.Interleaving.Transition
import Pumpy.Rpc.Manager

/-
  The endpoints of the RPC manager over a run of health checks
  and errors (`check_all_endpoints`, `mark_error` and
  `get_client`, rust-engine/src/rpc/mod.rs).  The checks hold
  the lock on the endpoints, so a round of them is one step.

  Against it stands an account of each endpoint: how fast its
  last successful check was, and how many checks and requests
  have failed since.

  Key definitions include:
    * `HealthEvent`
    * `healthSystem`
    * `Standing`
    * `accountAfter`
    * `Serves`

  The main result is `serves_of_exec`: what is chosen is decided
  by the account alone, an endpoint being fit until a check or
  six requests have failed.
-/

namespace Pumpy

namespace RpcManager

open Interleaving

------------------------------------------------------------
-- Checks and Errors
------------------------------------------------------------

/-
  A round of checks: for each endpoint when its check ends, and
  after how long it got a slot, if it did.  Or an error of a
  request to a URL.
-/
inductive HealthEvent where
  | check (results : List (ℕ × Option UInt64)) : HealthEvent
  | mark (url : String) : HealthEvent

/- `check_all_endpoints`. -/
def checkAllEndpoints
    (results : List (ℕ × Option UInt64))
    (endpoints : List RpcEndpoint) : List RpcEndpoint :=
  List.zipWith (fun ep r => checkEndpoint r.1 r.2 ep) endpoints results

def healthSystem : Transition HealthEvent (List RpcEndpoint) where
  step endpoints
    | .check results =>
        if results.length = endpoints.length then
          some (checkAllEndpoints results endpoints)
        else
          none
    | .mark url => some (markError url endpoints)

------------------------------------------------------------
-- The Account of an Endpoint
------------------------------------------------------------

/-
  How fast an endpoint was when last checked with success, and
  the checks and requests that have failed since.
-/
structure Standing where
  latencyMs : UInt64
  failedChecks : ℕ
  errors : ℕ
deriving DecidableEq

namespace Standing

def start : Standing :=
  ⟨0, 0, 0⟩

/- No check and at most five requests have failed. -/
def Fit (st : Standing) : Prop :=
  st.failedChecks = 0 ∧ st.errors ≤ 5

instance (st : Standing) : Decidable st.Fit :=
  inferInstanceAs (Decidable (_ ∧ _))

def afterCheck (st : Standing) : Option UInt64 → Standing
  | some elapsed => ⟨elapsed, 0, 0⟩
  | none => { st with failedChecks := st.failedChecks + 1 }

def afterError (st : Standing) : Standing :=
  { st with errors := st.errors + 1 }

end Standing

/- The endpoints that are configured, each with its standing. -/
abbrev Account := List (RpcEndpointConfig × Standing)

def openAccount (configs : List RpcEndpointConfig) : Account :=
  configs.map fun c => (c, .start)

/- An error counts against the first endpoint with its URL. -/
def noteEvent (account : Account) : HealthEvent → Account
  | .check results =>
      List.zipWith (fun x r => (x.1, x.2.afterCheck r.2)) account results
  | .mark url =>
      account.modify (account.findIdx fun x => x.1.url = url)
        fun x => (x.1, x.2.afterError)

def accountAfter
    (configs : List RpcEndpointConfig)
    (es : List HealthEvent) : Account :=
  es.foldl noteEvent (openAccount configs)

/- The endpoint is as its account has it. -/
structure Agrees
    (ep : RpcEndpoint)
    (x : RpcEndpointConfig × Standing) : Prop where
  config : ep.config = x.1
  healthy : ep.isHealthy = true ↔ x.2.Fit
  latency : ep.latencyMs = x.2.latencyMs
  errors : x.2.Fit → ep.errorCount.toNat = x.2.errors

section Steps

variable {endpoints endpoints' : List RpcEndpoint}
variable {account : Account} {configs : List RpcEndpointConfig}
variable {ep : RpcEndpoint} {x : RpcEndpointConfig × Standing}
variable {e : HealthEvent} {es : List HealthEvent}

theorem agrees_new :
    List.Forall₂ Agrees (new configs) (openAccount configs) := by
  induction configs with
  | nil => exact .nil
  | cons c configs ih =>
      refine .cons ⟨rfl, ?_, rfl, fun _ => rfl⟩ ih
      exact iff_of_true rfl ⟨rfl, Nat.zero_le _⟩

theorem Agrees.check
    (hAgrees : Agrees ep x)
    (now : ℕ)
    (slotAfter : Option UInt64) :
    Agrees (checkEndpoint now slotAfter ep)
      (x.1, x.2.afterCheck slotAfter) := by
  cases slotAfter with
  | some elapsed =>
      refine ⟨hAgrees.config, ?_, rfl, fun _ => rfl⟩
      exact iff_of_true rfl ⟨rfl, Nat.zero_le _⟩
  | none =>
      have hUnfit : ¬(x.2.afterCheck none).Fit :=
        fun hFit => absurd hFit.1 (Nat.succ_ne_zero _)
      refine ⟨hAgrees.config, ?_, hAgrees.latency, fun hFit => ?_⟩
      · exact iff_of_false Bool.false_ne_true hUnfit
      · exact absurd hFit hUnfit

/- The sixth error in a row makes an endpoint unhealthy. -/
theorem Agrees.error
    (hAgrees : Agrees ep x) :
    Agrees
      { ep with
        errorCount := ep.errorCount + 1
        isHealthy :=
          if 5 < ep.errorCount + 1 then false else ep.isHealthy }
      (x.1, x.2.afterError) := by
  rcases hAgrees with ⟨hConfig, hHealthy, hLatency, hErrors⟩
  have hCount :
      x.2.Fit → (ep.errorCount + 1).toNat = x.2.errors + 1 := by
    intro hFit
    have hFew := hFit.2
    rw [UInt32.toNat_add, hErrors hFit, UInt32.toNat_one,
      Nat.mod_eq_of_lt (by omega)]
  have hEarlier : x.2.afterError.Fit → x.2.Fit :=
    fun hFit => ⟨hFit.1, Nat.le_of_succ_le hFit.2⟩
  refine ⟨hConfig, ?_, hLatency, fun hFit => hCount (hEarlier hFit)⟩
  dsimp only
  by_cases hFit : x.2.Fit
  · have hMany :
        5 < ep.errorCount + 1 ↔ 5 < x.2.errors + 1 := by
      rw [UInt32.lt_iff_toNat_lt, hCount hFit]
      rfl
    by_cases hSixth : 5 < ep.errorCount + 1
    · rw [if_pos hSixth]
      refine iff_of_false Bool.false_ne_true fun hAfter => ?_
      exact absurd hAfter.2 (Nat.not_le_of_lt (hMany.mp hSixth))
    · rw [if_neg hSixth]
      refine iff_of_true (hHealthy.mpr hFit) ⟨hFit.1, ?_⟩
      exact Nat.le_of_not_lt fun hLt => hSixth (hMany.mpr hLt)
  · refine iff_of_false ?_ fun hAfter => hFit (hEarlier hAfter)
    have hUnhealthy : ep.isHealthy ≠ true :=
      fun hTrue => hFit (hHealthy.mp hTrue)
    split
    · exact Bool.false_ne_true
    · exact hUnhealthy

theorem agrees_checkAllEndpoints
    (hAgrees : List.Forall₂ Agrees endpoints account)
    (results : List (ℕ × Option UInt64)) :
    List.Forall₂ Agrees (checkAllEndpoints results endpoints)
      (noteEvent account (.check results)) := by
  unfold checkAllEndpoints noteEvent
  induction hAgrees generalizing results with
  | nil => exact .nil
  | cons hHead hTail ih =>
      cases results with
      | nil => exact .nil
      | cons r results =>
          exact .cons (hHead.check r.1 r.2) (ih results)

theorem agrees_markError
    (hAgrees : List.Forall₂ Agrees endpoints account)
    (url : String) :
    List.Forall₂ Agrees (markError url endpoints)
      (noteEvent account (.mark url)) := by
  dsimp only [noteEvent]
  induction hAgrees with
  | nil => exact .nil
  | @cons ep x endpoints account hHead hTail ih =>
      unfold markError
      rw [List.findIdx_cons, ← hHead.config]
      by_cases hUrl : ep.config.url = url
      · rw [if_pos hUrl, decide_eq_true hUrl]
        exact .cons hHead.error hTail
      · rw [if_neg hUrl, decide_eq_false hUrl]
        exact .cons hHead ih

/- After every run the endpoints are as their account has them. -/
theorem agrees_of_exec
    (hExec : healthSystem.exec (new configs) es = some endpoints) :
    List.Forall₂ Agrees endpoints (accountAfter configs es) := by
  refine Transition.exec_induction
    (P := fun es endpoints =>
      List.Forall₂ Agrees endpoints (accountAfter configs es))
    agrees_new ?_ hExec
  intro es endpoints e endpoints' _ hAgrees hStep
  have hNote :
      accountAfter configs (es ++ [e]) =
        noteEvent (accountAfter configs es) e := by
    unfold accountAfter
    rw [List.foldl_append]
    rfl
  rw [hNote]
  cases e with
  | check results =>
      change
        (if results.length = endpoints.length then some _ else none) =
          some endpoints' at hStep
      split at hStep
      · cases hStep
        exact agrees_checkAllEndpoints hAgrees results
      · cases hStep
  | mark url =>
      cases hStep
      exact agrees_markError hAgrees url

end Steps

------------------------------------------------------------
-- The Choice
------------------------------------------------------------

/- The first of the least, among the elements that qualify. -/
theorem exists_of_argmin_filter
    {α β : Type} [LinearOrder β]
    {l : List α} {p : α → Bool} {f : α → β} {m : α}
    (hLeast : (l.filter p).argmin f = some m) :
    ∃ i : ℕ,
      l[i]? = some m ∧
        p m = true ∧
          ∀ (j : ℕ) x,
            l[j]? = some x → p x = true →
              f m < f x ∨ f m = f x ∧ i ≤ j := by
  induction l using List.reverseRecOn generalizing m with
  | nil => cases hLeast
  | append_singleton l a ih =>
      have hLast :
          ∀ {j : ℕ} {x}, (l ++ [a])[j]? = some x →
            l[j]? = some x ∨ j = l.length ∧ x = a := by
        intro j x hAt
        by_cases hInside : j < l.length
        · rw [List.getElem?_append_left hInside] at hAt
          exact .inl hAt
        · have hLt := (List.getElem?_eq_some_iff.mp hAt).1
          rw [List.length_append, List.length_singleton] at hLt
          have hEnd : j = l.length := by omega
          subst hEnd
          rw [List.getElem?_concat_length] at hAt
          exact .inr ⟨rfl, (Option.some.inj hAt).symm⟩
      have hEarlier :
          ∀ {i : ℕ} {m}, l[i]? = some m →
            (l ++ [a])[i]? = some m ∧ i < l.length := by
        intro i m hAt
        have hInside := (List.getElem?_eq_some_iff.mp hAt).1
        exact ⟨(List.getElem?_append_left hInside).trans hAt, hInside⟩
      rw [List.filter_append] at hLeast
      by_cases hQualifies : p a = true
      · rw [List.filter_cons_of_pos hQualifies, List.filter_nil,
          List.argmin_concat] at hLeast
        cases hBefore : (l.filter p).argmin f with
        | none =>
            rw [hBefore] at hLeast
            cases hLeast
            refine ⟨l.length, List.getElem?_concat_length, hQualifies, ?_⟩
            intro j x hAt hX
            rcases hLast hAt with hIn | ⟨rfl, rfl⟩
            · have hMem :=
                List.mem_filter.mpr ⟨List.mem_of_getElem? hIn, hX⟩
              rw [List.argmin_eq_none.mp hBefore] at hMem
              cases hMem
            · exact .inr ⟨rfl, le_refl _⟩
        | some c =>
            rcases ih hBefore with ⟨i, hAt, hC, hBest⟩
            rw [hBefore] at hLeast
            dsimp only at hLeast
            split at hLeast
            · rename_i hLess
              cases hLeast
              refine ⟨l.length, List.getElem?_concat_length,
                hQualifies, ?_⟩
              intro j x hAtX hX
              rcases hLast hAtX with hIn | ⟨rfl, rfl⟩
              · rcases hBest j x hIn hX with hLt | ⟨hEq, _⟩
                · exact .inl (hLess.trans hLt)
                · exact .inl (hEq ▸ hLess)
              · exact .inr ⟨rfl, le_refl _⟩
            · rename_i hNotLess
              cases hLeast
              refine ⟨i, (hEarlier hAt).1, hC, fun j x hAtX hX => ?_⟩
              rcases hLast hAtX with hIn | ⟨rfl, rfl⟩
              · exact hBest j x hIn hX
              · rcases (not_lt.mp hNotLess).lt_or_eq with hLt | hEq
                · exact .inl hLt
                · exact .inr ⟨hEq, (hEarlier hAt).2.le⟩
      · rw [List.filter_cons_of_neg hQualifies, List.filter_nil,
          List.append_nil] at hLeast
        rcases ih hLeast with ⟨i, hAt, hM, hBest⟩
        refine ⟨i, (hEarlier hAt).1, hM, fun j x hAtX hX => ?_⟩
        rcases hLast hAtX with hIn | ⟨rfl, rfl⟩
        · exact hBest j x hIn hX
        · exact absurd hX hQualifies

/- Endpoint `i` comes before `j`: priority, latency, place. -/
def Precedes
    (i : ℕ) (x : RpcEndpointConfig × Standing)
    (j : ℕ) (y : RpcEndpointConfig × Standing) : Prop :=
  x.1.priority < y.1.priority ∨
    x.1.priority = y.1.priority ∧
      (x.2.latencyMs.toNat < y.2.latencyMs.toNat ∨
        x.2.latencyMs.toNat = y.2.latencyMs.toNat ∧ i ≤ j)

/-
  What a choice has to be: the first of the fit endpoints; with
  none fit, the first of all; an error only where there is none.
-/
inductive Serves (account : Account) : Except String String → Prop where
  | fit
      {i : ℕ} {x : RpcEndpointConfig × Standing}
      (hAt : account[i]? = some x)
      (hFit : x.2.Fit)
      (hFirst :
        ∀ j y, account[j]? = some y → y.2.Fit → Precedes i x j y) :
      Serves account (.ok x.1.url)
  | unfit
      {x : RpcEndpointConfig × Standing}
      (hHead : account.head? = some x)
      (hNone : ∀ y ∈ account, ¬y.2.Fit) :
      Serves account (.ok x.1.url)
  | none
      (hEmpty : account = []) :
      Serves account (.error "No RPC endpoints configured")

section Choice

variable {endpoints : List RpcEndpoint} {account : Account}
variable {configs : List RpcEndpointConfig} {es : List HealthEvent}

theorem exists_endpoint
    {i : ℕ} {x : RpcEndpointConfig × Standing}
    (hAgrees : List.Forall₂ Agrees endpoints account)
    (hAt : account[i]? = some x) :
    ∃ ep, endpoints[i]? = some ep ∧ Agrees ep x := by
  rcases List.getElem?_eq_some_iff.mp hAt with ⟨hLt, hGet⟩
  have hLt' : i < endpoints.length := hAgrees.length_eq ▸ hLt
  refine ⟨endpoints[i], List.getElem?_eq_getElem hLt', ?_⟩
  rw [← hGet]
  exact hAgrees.get hLt' hLt

theorem exists_account
    {i : ℕ} {ep : RpcEndpoint}
    (hAgrees : List.Forall₂ Agrees endpoints account)
    (hAt : endpoints[i]? = some ep) :
    ∃ x, account[i]? = some x ∧ Agrees ep x := by
  rcases List.getElem?_eq_some_iff.mp hAt with ⟨hLt, hGet⟩
  have hLt' : i < account.length := hAgrees.length_eq ▸ hLt
  refine ⟨account[i], List.getElem?_eq_getElem hLt', ?_⟩
  rw [← hGet]
  exact hAgrees.get hLt hLt'

theorem serves_getClient
    (hAgrees : List.Forall₂ Agrees endpoints account) :
    Serves account (getClient endpoints) := by
  unfold getClient
  by_cases hNone : endpoints.filter (·.isHealthy) = []
  · dsimp only
    rw [if_pos hNone]
    cases hAgrees with
    | nil => exact .none rfl
    | @cons ep x endpoints account hHead hTail =>
        dsimp only [List.head?_cons]
        rw [hHead.config]
        refine .unfit rfl fun y hMem hFit => ?_
        rcases List.mem_iff_getElem?.mp hMem with ⟨i, hAt⟩
        rcases exists_endpoint (.cons hHead hTail) hAt with
          ⟨ep', hAt', hAgrees'⟩
        have hHealthy :
            ep' ∈ (ep :: endpoints).filter (·.isHealthy) :=
          List.mem_filter.mpr
            ⟨List.mem_of_getElem? hAt', hAgrees'.healthy.mpr hFit⟩
        rw [hNone] at hHealthy
        cases hHealthy
  · dsimp only
    rw [if_neg hNone]
    cases hBest :
        ((endpoints.filter (·.isHealthy)).map
          (·.config.priority)).min? with
    | none =>
        exact absurd (List.min?_eq_none_iff.mp hBest)
          (by simpa using hNone)
    | some best =>
        rcases List.min?_eq_some_iff.mp hBest with ⟨hMem, hLeast⟩
        rcases List.mem_map.mp hMem with ⟨first, hFirst, hPriority⟩
        rw [Option.getD_some]
        cases hArg :
            ((endpoints.filter (·.isHealthy)).filter
              (·.config.priority = best)).argmin
                (·.latencyMs.toNat) with
        | none =>
            have hTier :
                first ∈
                  (endpoints.filter (·.isHealthy)).filter
                    (·.config.priority = best) :=
              List.mem_filter.mpr ⟨hFirst, decide_eq_true hPriority⟩
            rw [List.argmin_eq_none.mp hArg] at hTier
            cases hTier
        | some selected =>
            rw [List.filter_filter] at hArg
            rcases exists_of_argmin_filter hArg with
              ⟨i, hAt, hQualifies, hAll⟩
            rcases exists_account hAgrees hAt with ⟨x, hX, hAgreesX⟩
            rw [Bool.and_eq_true, decide_eq_true_eq] at hQualifies
            dsimp only
            rw [hAgreesX.config]
            refine .fit hX (hAgreesX.healthy.mp hQualifies.2)
              fun j y hAtY hFitY => ?_
            rcases exists_endpoint hAgrees hAtY with
              ⟨ep, hAtEp, hAgreesY⟩
            have hHealthy := hAgreesY.healthy.mpr hFitY
            have hLe : best ≤ ep.config.priority :=
              hLeast _ (List.mem_map_of_mem
                (List.mem_filter.mpr
                  ⟨List.mem_of_getElem? hAtEp, hHealthy⟩))
            have hSame := hQualifies.1
            unfold Precedes
            rw [← hAgreesX.config, ← hAgreesY.config, hSame,
              ← hAgreesX.latency, ← hAgreesY.latency]
            by_cases hEq : best = ep.config.priority
            · refine .inr ⟨hEq, hAll j ep hAtEp ?_⟩
              rw [Bool.and_eq_true, decide_eq_true_eq]
              exact ⟨hEq.symm, hHealthy⟩
            · exact .inl (UInt8.lt_of_le_of_ne hLe hEq)

/-
  After every run of checks and errors, the client that is given
  out is decided by the account.
-/
theorem serves_of_exec
    (hExec : healthSystem.exec (new configs) es = some endpoints) :
    Serves (accountAfter configs es) (getClient endpoints) :=
  serves_getClient (agrees_of_exec hExec)

end Choice

/- Two nodes, of which the second is to be used last. -/
def twoNodes : List RpcEndpointConfig :=
  [⟨"a", "primary", 0, none⟩, ⟨"b", "fallback", 1, none⟩]

/- Both are checked, and then requests to the first fail. -/
def failingRequests : List HealthEvent :=
  .check [(30000, some 40), (30100, some 90)] ::
    List.replicate 6 (.mark "a")

/- After six errors the second node serves. -/
theorem serves_failingRequests :
    ∃ endpoints,
      healthSystem.exec (new twoNodes) failingRequests =
          some endpoints ∧
        getClient endpoints = .ok "b" ∧
          Serves (accountAfter twoNodes failingRequests)
            (getClient endpoints) :=
  ⟨_, rfl, by decide, serves_of_exec rfl⟩

end RpcManager

end Pumpy
