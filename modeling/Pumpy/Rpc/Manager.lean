import Mathlib.Data.List.MinMax
import Pumpy.Settings.Config

/-
  The RPC manager (rust-engine/src/rpc/mod.rs): endpoints with
  their health and latency, and the choice of one of them.

  Key definitions include:
    * `RpcEndpoint`
    * `checkEndpoint`
    * `markError`
    * `getClient`

  The main result is `getClient_healthy`: while every endpoint
  is healthy, an endpoint of the lowest priority is chosen.
-/

------------------------------------------------------------
-- Endpoints
------------------------------------------------------------

namespace Pumpy

namespace RpcManager

/- Times are in milliseconds. -/
structure RpcEndpoint where
  config : RpcEndpointConfig
  isHealthy : Bool
  latencyMs : UInt64
  errorCount : UInt32
  lastCheck : Option ℕ
deriving DecidableEq

/- `RpcManager::new`. -/
def new (configs : List RpcEndpointConfig) : List RpcEndpoint :=
  configs.map fun c => ⟨c, true, 0, 0, none⟩

/- A turn of `check_all_endpoints`, which may get a slot in time. -/
def checkEndpoint
    (now : ℕ)
    (slotAfter : Option UInt64)
    (endpoint : RpcEndpoint) : RpcEndpoint :=
  match slotAfter with
  | some elapsed =>
      { endpoint with
        isHealthy := true
        latencyMs := elapsed
        errorCount := 0
        lastCheck := some now }
  | none =>
      { endpoint with
        isHealthy := false
        errorCount := endpoint.errorCount + 1
        lastCheck := some now }

/- `mark_error(url)`, on the first endpoint of the URL. -/
def markError (url : String) : List RpcEndpoint → List RpcEndpoint
  | [] => []
  | ep :: rest =>
      if ep.config.url = url then
        { ep with
          errorCount := ep.errorCount + 1
          isHealthy :=
            if 5 < ep.errorCount + 1 then false else ep.isHealthy } ::
          rest
      else
        ep :: markError url rest

/- `get_client()`: the URL of the client, or an error. -/
def getClient (endpoints : List RpcEndpoint) : Except String String :=
  let healthy := endpoints.filter (·.isHealthy)
  if healthy = [] then
    match endpoints.head? with
    | some ep => .ok ep.config.url
    | none => .error "No RPC endpoints configured"
  else
    let bestPriority := (healthy.map (·.config.priority)).min?.getD 255
    let topTier := healthy.filter (·.config.priority = bestPriority)
    -- the first of the fastest
    match topTier.argmin (·.latencyMs.toNat) with
    | some selected => .ok selected.config.url
    | none =>
        match topTier with
        | ep :: _ => .ok ep.config.url
        | [] => .error "index out of bounds"

------------------------------------------------------------
-- The Choice
------------------------------------------------------------

section Choice

variable {endpoints : List RpcEndpoint}

/- While all are healthy, one of the lowest priority is chosen. -/
theorem getClient_healthy
    (hSome : endpoints ≠ [])
    (hHealthy : ∀ ep ∈ endpoints, ep.isHealthy = true) :
    ∃ selected ∈ endpoints,
      getClient endpoints = .ok selected.config.url ∧
        ∀ ep ∈ endpoints,
          selected.config.priority ≤ ep.config.priority := by
  have hFilter : endpoints.filter (·.isHealthy) = endpoints :=
    List.filter_eq_self.mpr hHealthy
  cases hBest : (endpoints.map (·.config.priority)).min? with
  | none => exact absurd (List.min?_eq_none_iff.mp hBest) (by simpa using hSome)
  | some best =>
      rcases List.min?_eq_some_iff.mp hBest with ⟨hMem, hLeast⟩
      rcases List.mem_map.mp hMem with ⟨first, hFirst, hPriority⟩
      have hTier :
          first ∈ endpoints.filter (·.config.priority = best) :=
        List.mem_filter.mpr ⟨hFirst, decide_eq_true hPriority⟩
      cases hArg :
          (endpoints.filter (·.config.priority = best)).argmin
            (·.latencyMs.toNat) with
      | none =>
          rw [List.argmin_eq_none.mp hArg] at hTier
          cases hTier
      | some selected =>
          rcases List.mem_filter.mp (List.argmin_mem hArg) with
            ⟨hSelected, hSame⟩
          refine ⟨selected, hSelected, ?_, fun ep hEp => ?_⟩
          · unfold getClient
            rw [hFilter, if_neg hSome, hBest, Option.getD_some]
            dsimp only
            rw [hArg]
          · rw [of_decide_eq_true hSame]
            exact hLeast _ (List.mem_map_of_mem hEp)

end Choice

end RpcManager

end Pumpy
