import Pumpy.Rpc.Manager
import Pumpy.Settings.InForce

/-
  The primary endpoint after the overrides of the table: where
  it stands in the list, and whether it is the one that is used.

  Key definitions include:
    * `primaryUrl`
    * `failoverUrls`
    * `PrimaryWins`

  The main result is `primaryWins_iff`: the fail-over URLs of
  the environment are not searched for the primary, and the
  priorities are bytes, so that the 255th fail-over URL comes
  before the primary.
-/

------------------------------------------------------------
-- What is promised
------------------------------------------------------------

namespace Pumpy

namespace RpcManager

section Primary

variable (config : Config) (overrides : ConfigTable)

/- The primary URL of the table, and its fail-over URLs. -/
def dbPrimary : Option String :=
  (overrides "SOLANA_RPC_URL").filter (· ≠ "")

def dbFailover : Option (List String) :=
  ((overrides "SOLANA_RPC_URLS").filter (· ≠ "")).map splitUrls

/- The table's primary URL, or else the first that was there. -/
def primaryUrl : String :=
  (dbPrimary overrides).getD
    ((config.rpcEndpoints.head?.map RpcEndpointConfig.url).getD
      defaultRpcUrl)

/-
  The fail-over URLs: those of the table that are not the
  primary's, or else the others that were there.
-/
def failoverUrls : List String :=
  match dbFailover overrides with
  | some urls => urls.filter (· ≠ primaryUrl config overrides)
  | none => (config.rpcEndpoints.drop 1).map RpcEndpointConfig.url

/- The primary endpoint is first, stays first, and is used. -/
structure PrimaryWins : Prop where
  first :
    ((config.applyDbOverrides overrides).rpcEndpoints.map
      RpcEndpointConfig.url).head? =
        some (primaryUrl config overrides)
  once :
    ∀ ep ∈ (config.applyDbOverrides overrides).rpcEndpoints.tail,
      ep.url ≠ primaryUrl config overrides
  ordered :
    ∀ urls ∈ dbFailover overrides,
      (config.applyDbOverrides overrides).rpcEndpoints.tail.map
          RpcEndpointConfig.url =
        urls.filter (· ≠ primaryUrl config overrides)
  settled :
    (config.applyDbOverrides overrides).applyDbOverrides overrides =
      config.applyDbOverrides overrides
  selected :
    ∀ endpoints : List RpcEndpoint,
      endpoints.map RpcEndpoint.config =
          (config.applyDbOverrides overrides).rpcEndpoints →
        (∀ ep ∈ endpoints, ep.isHealthy = true) →
          getClient endpoints = .ok (primaryUrl config overrides)

------------------------------------------------------------
-- The List of Endpoints
------------------------------------------------------------

variable {config overrides}

/- The overrides set an RPC URL. -/
def SetsRpc (overrides : ConfigTable) : Prop :=
  dbPrimary overrides ≠ none ∨ dbFailover overrides ≠ none

instance (overrides : ConfigTable) : Decidable (SetsRpc overrides) :=
  inferInstanceAs (Decidable (_ ∨ _))

theorem config_ext
    {c d : Config}
    (hRpc : c.rpcEndpoints = d.rpcEndpoints)
    (hJito : c.jitoBundleUrl = d.jitoBundleUrl)
    (hMax : c.maxPositionSizeSol = d.maxPositionSizeSol) :
    c = d := by
  cases c
  cases d
  cases hRpc
  cases hJito
  cases hMax
  rfl

theorem rpcEndpoints_applyDbOverrides
    (hSet : SetsRpc overrides) :
    (config.applyDbOverrides overrides).rpcEndpoints =
      endpointsOf
        (primaryUrl config overrides ::
          failoverUrls config overrides) := by
  have hSome :
      ((dbPrimary overrides).isSome ||
        (dbFailover overrides).isSome) = true := by
    rw [Bool.or_eq_true, Option.isSome_iff_ne_none,
      Option.isSome_iff_ne_none]
    exact hSet
  have hRpc :
      (config.overrideRpc overrides).rpcEndpoints =
        endpointsOf
          (primaryUrl config overrides ::
            failoverUrls config overrides) := by
    unfold Config.overrideRpc
    exact congrArg Config.rpcEndpoints (if_pos hSome)
  unfold Config.applyDbOverrides Config.overrideRisk
    Config.overrideJito
  split <;> split <;> exact hRpc

/- Endpoint number `i` has the number after it for a priority. -/
theorem getElem?_endpointsOf (urls : List String) (i : ℕ) :
    (endpointsOf urls)[i]? =
      urls[i]?.map fun url =>
        ⟨url, providerName url, UInt8.ofNat (i + 1), none⟩ :=
  List.getElem?_mapIdx

theorem jitoBundleUrl_applyDbOverrides :
    (config.applyDbOverrides overrides).jitoBundleUrl =
      ((overrides "JITO_BUNDLE_URL").filter (· ≠ "")).or
        config.jitoBundleUrl := by
  simp only [Config.applyDbOverrides, jitoBundleUrl_overrideRisk,
    Config.overrideJito]
  split
  · next url hSome => rw [hSome, Option.some_or]
  · next hNone => rw [hNone, Option.none_or, jitoBundleUrl_overrideRpc]

theorem maxPositionSizeSol_applyDbOverrides :
    (config.applyDbOverrides overrides).maxPositionSizeSol =
      ((overrides "MAX_POSITION_SIZE_SOL").bind F64.parse).getD
        config.maxPositionSizeSol := by
  simp only [Config.applyDbOverrides, Config.overrideRisk]
  split
  · next f hSome => rw [hSome, Option.getD_some]
  · next hNone =>
      rw [hNone, Option.getD_none, maxPositionSizeSol_overrideJito,
        maxPositionSizeSol_overrideRpc]

theorem map_url_applyDbOverrides
    (hSet : SetsRpc overrides) :
    (config.applyDbOverrides overrides).rpcEndpoints.map
        RpcEndpointConfig.url =
      primaryUrl config overrides :: failoverUrls config overrides := by
  rw [rpcEndpoints_applyDbOverrides hSet, map_url_endpointsOf]

theorem map_url_tail
    (hSet : SetsRpc overrides) :
    (config.applyDbOverrides overrides).rpcEndpoints.tail.map
        RpcEndpointConfig.url =
      failoverUrls config overrides := by
  rw [List.map_tail, map_url_applyDbOverrides hSet, List.tail_cons]

------------------------------------------------------------
-- The Same Overrides Again
------------------------------------------------------------

theorem primaryUrl_applyDbOverrides
    (hSet : SetsRpc overrides) :
    primaryUrl (config.applyDbOverrides overrides) overrides =
      primaryUrl config overrides := by
  unfold primaryUrl
  cases hPrimary : dbPrimary overrides with
  | some url => rfl
  | none =>
      rw [← List.head?_map, map_url_applyDbOverrides hSet]
      unfold primaryUrl
      rw [hPrimary]
      rfl

theorem failoverUrls_applyDbOverrides
    (hSet : SetsRpc overrides) :
    failoverUrls (config.applyDbOverrides overrides) overrides =
      failoverUrls config overrides := by
  unfold failoverUrls
  rw [primaryUrl_applyDbOverrides hSet]
  cases hFailover : dbFailover overrides with
  | some urls => rfl
  | none =>
      dsimp only
      rw [List.drop_one, map_url_tail hSet]
      unfold failoverUrls
      rw [hFailover]

/- Nothing changes when the same overrides are applied again. -/
theorem applyDbOverrides_again
    (hSet : SetsRpc overrides) :
    (config.applyDbOverrides overrides).applyDbOverrides overrides =
      config.applyDbOverrides overrides := by
  have hRpc :
      ((config.applyDbOverrides overrides).applyDbOverrides
          overrides).rpcEndpoints =
        (config.applyDbOverrides overrides).rpcEndpoints := by
    rw [rpcEndpoints_applyDbOverrides hSet,
      primaryUrl_applyDbOverrides hSet,
      failoverUrls_applyDbOverrides hSet,
      rpcEndpoints_applyDbOverrides hSet]
  have hJito :
      ((config.applyDbOverrides overrides).applyDbOverrides
          overrides).jitoBundleUrl =
        (config.applyDbOverrides overrides).jitoBundleUrl := by
    rw [jitoBundleUrl_applyDbOverrides, jitoBundleUrl_applyDbOverrides,
      ← Option.or_assoc, Option.or_self]
  have hMax :
      ((config.applyDbOverrides overrides).applyDbOverrides
          overrides).maxPositionSizeSol =
        (config.applyDbOverrides overrides).maxPositionSizeSol := by
    rw [maxPositionSizeSol_applyDbOverrides,
      maxPositionSizeSol_applyDbOverrides]
    cases (overrides "MAX_POSITION_SIZE_SOL").bind F64.parse <;> rfl
  exact config_ext hRpc hJito hMax

------------------------------------------------------------
-- The Endpoint that is Used
------------------------------------------------------------

/- Healthy endpoints: the one used has the lowest priority. -/
theorem getClient_endpointsOf
    {urls : List String}
    {endpoints : List RpcEndpoint}
    (hSome : urls ≠ [])
    (hConfigs : endpoints.map RpcEndpoint.config = endpointsOf urls)
    (hHealthy : ∀ ep ∈ endpoints, ep.isHealthy = true) :
    ∃ i url,
      urls[i]? = some url ∧
        getClient endpoints = .ok url ∧
        ∀ j < urls.length, (i + 1) % 256 ≤ (j + 1) % 256 := by
  have hConfig :
      ∀ i, endpoints[i]?.map RpcEndpoint.config =
        urls[i]?.map fun url =>
          ⟨url, providerName url, UInt8.ofNat (i + 1), none⟩ := by
    intro i
    rw [← List.getElem?_map, hConfigs, getElem?_endpointsOf]
  have hLength : endpoints.length = urls.length := by
    have hSame := congrArg List.length hConfigs
    rwa [List.length_map, endpointsOf, List.length_mapIdx] at hSame
  have hNonempty : endpoints ≠ [] := by
    intro hNone
    rw [hNone, List.length_nil] at hLength
    exact hSome (List.length_eq_zero_iff.mp hLength.symm)
  rcases getClient_healthy hNonempty hHealthy with
    ⟨selected, hMem, hClient, hLeast⟩
  rcases List.mem_iff_getElem?.mp hMem with ⟨i, hAt⟩
  have hHere := hConfig i
  rw [hAt, Option.map_some] at hHere
  rcases Option.map_eq_some_iff.mp hHere.symm with ⟨url, hUrl, hMade⟩
  refine ⟨i, url, hUrl, ?_, fun j hJ => ?_⟩
  · rw [hClient, ← hMade]
  · have hThere := hConfig j
    rw [List.getElem?_eq_getElem hJ,
      List.getElem?_eq_getElem (hLength ▸ hJ), Option.map_some,
      Option.map_some, Option.some.injEq] at hThere
    have hLe := hLeast _ (List.getElem_mem (hLength ▸ hJ))
    rw [hThere, ← hMade, UInt8.le_iff_toNat_le, UInt8.toNat_ofNat',
      UInt8.toNat_ofNat'] at hLe
    exact hLe

/- The first URL is used, if no byte of the priorities overflows. -/
theorem getClient_first
    {url : String}
    {rest : List String}
    {endpoints : List RpcEndpoint}
    (hFew : rest.length ≤ 254)
    (hConfigs :
      endpoints.map RpcEndpoint.config = endpointsOf (url :: rest))
    (hHealthy : ∀ ep ∈ endpoints, ep.isHealthy = true) :
    getClient endpoints = .ok url := by
  rcases getClient_endpointsOf (List.cons_ne_nil _ _) hConfigs
    hHealthy with ⟨i, used, hUsed, hClient, hLeast⟩
  have hIn : i < (url :: rest).length :=
    (List.getElem?_eq_some_iff.mp hUsed).1
  have hLe := hLeast 0 (Nat.succ_pos _)
  rw [List.length_cons] at hIn
  have hFirst : i = 0 := by omega
  subst hFirst
  rw [List.getElem?_cons_zero, Option.some.injEq] at hUsed
  rw [hClient, hUsed]

/- A later one is used, if the byte overflows. -/
theorem getClient_overflow
    {url : String}
    {rest : List String}
    {endpoints : List RpcEndpoint}
    (hMany : 254 < rest.length)
    (hConfigs :
      endpoints.map RpcEndpoint.config = endpointsOf (url :: rest))
    (hHealthy : ∀ ep ∈ endpoints, ep.isHealthy = true) :
    ∃ used ∈ rest, getClient endpoints = .ok used := by
  rcases getClient_endpointsOf (List.cons_ne_nil _ _) hConfigs
    hHealthy with ⟨i, used, hUsed, hClient, hLeast⟩
  have hLong : 255 < (url :: rest).length := by
    rw [List.length_cons]
    omega
  have hLe := hLeast 255 hLong
  cases i with
  | zero => omega
  | succ i =>
      rw [List.getElem?_cons_succ] at hUsed
      exact ⟨used, List.mem_of_getElem? hUsed, hClient⟩

------------------------------------------------------------
-- When the Primary Wins
------------------------------------------------------------

variable (config overrides)

/-
  Where the table has no fail-over URLs, none of the others that
  were there is the primary's.
-/
def RemainderFree : Prop :=
  dbFailover overrides = none →
    ∀ ep ∈ config.rpcEndpoints.drop 1,
      ep.url ≠ primaryUrl config overrides

theorem not_mem_failoverUrls_iff :
    primaryUrl config overrides ∉ failoverUrls config overrides ↔
      RemainderFree config overrides := by
  unfold RemainderFree failoverUrls
  cases dbFailover overrides with
  | some urls =>
      refine iff_of_true (fun hMem => ?_) nofun
      exact of_decide_eq_true (List.mem_filter.mp hMem).2 rfl
  | none =>
      simp only [List.mem_map, not_exists, not_and, ne_eq, true_imp_iff]

/-
  The primary endpoint wins exactly if the fail-over URLs of the
  environment do not have it, and there are at most 254 of them.
-/
theorem primaryWins_iff
    (hSet : SetsRpc overrides) :
    PrimaryWins config overrides ↔
      RemainderFree config overrides ∧
        (failoverUrls config overrides).length ≤ 254 := by
  have hOnce :
      (∀ ep ∈ (config.applyDbOverrides overrides).rpcEndpoints.tail,
          ep.url ≠ primaryUrl config overrides) ↔
        primaryUrl config overrides ∉ failoverUrls config overrides := by
    rw [← map_url_tail hSet]
    simp only [List.mem_map, not_exists, not_and, ne_eq]
  have hMade :
      (config.applyDbOverrides overrides).rpcEndpoints =
        endpointsOf
          (primaryUrl config overrides ::
            failoverUrls config overrides) :=
    rpcEndpoints_applyDbOverrides hSet
  constructor
  · intro hWins
    have hFree := hOnce.mp hWins.once
    refine ⟨(not_mem_failoverUrls_iff config overrides).mp hFree, ?_⟩
    by_contra hMany
    have hNew :
        (new (config.applyDbOverrides overrides).rpcEndpoints).map
            RpcEndpoint.config =
          (config.applyDbOverrides overrides).rpcEndpoints := by
      unfold new
      rw [List.map_map]
      exact List.map_id _
    have hHealthy :
        ∀ ep ∈ new (config.applyDbOverrides overrides).rpcEndpoints,
          ep.isHealthy = true := by
      intro ep hMem
      rcases List.mem_map.mp hMem with ⟨c, _, rfl⟩
      rfl
    have hUsed := hWins.selected _ hNew hHealthy
    rcases getClient_overflow (not_le.mp hMany) (hNew.trans hMade)
      hHealthy with ⟨used, hMem, hClient⟩
    rw [hUsed, Except.ok.injEq] at hClient
    exact hFree (hClient ▸ hMem)
  · rintro ⟨hFree, hFew⟩
    refine ⟨?_, ?_, ?_, applyDbOverrides_again hSet, ?_⟩
    · rw [map_url_applyDbOverrides hSet]
      rfl
    · exact hOnce.mpr ((not_mem_failoverUrls_iff config overrides).mpr hFree)
    · intro urls hUrls
      rw [map_url_tail hSet]
      unfold failoverUrls
      rw [Option.mem_def.mp hUrls]
    · intro endpoints hConfigs hHealthy
      exact getClient_first hFew (hConfigs.trans hMade) hHealthy

end Primary

/- Two URLs in the environment. -/
def twoUrls : Env :=
  fun key =>
    if key = "SOLANA_RPC_URLS" then
      some "https://rpc.a.com,https://rpc.b.com"
    else
      none

/- The second of them is the primary of the table. -/
def secondPrimary : ConfigTable :=
  fun key =>
    if key = "SOLANA_RPC_URL" then some "https://rpc.b.com" else none

theorem primaryWins_iff_second :
    PrimaryWins (Config.fromEnv twoUrls) secondPrimary ↔
      RemainderFree (Config.fromEnv twoUrls) secondPrimary ∧
        (failoverUrls (Config.fromEnv twoUrls)
          secondPrimary).length ≤ 254 :=
  primaryWins_iff (Config.fromEnv twoUrls) secondPrimary
    (by decide +kernel)

/- The primary is its own fail-over. -/
theorem not_primaryWins_second :
    (((Config.fromEnv twoUrls).applyDbOverrides
        secondPrimary).rpcEndpoints.map RpcEndpointConfig.url) =
        ["https://rpc.b.com", "https://rpc.b.com"] ∧
      ¬PrimaryWins (Config.fromEnv twoUrls) secondPrimary := by
  have hUrls :
      ((Config.fromEnv twoUrls).applyDbOverrides
          secondPrimary).rpcEndpoints.tail.map RpcEndpointConfig.url =
        [primaryUrl (Config.fromEnv twoUrls) secondPrimary] := by
    decide +kernel
  refine ⟨by decide +kernel, fun hWins => ?_⟩
  have hMem :
      primaryUrl (Config.fromEnv twoUrls) secondPrimary ∈
        ((Config.fromEnv twoUrls).applyDbOverrides
          secondPrimary).rpcEndpoints.tail.map
            RpcEndpointConfig.url := by
    rw [hUrls]
    exact List.mem_singleton_self _
  rcases List.mem_map.mp hMem with ⟨ep, hEp, hSame⟩
  exact hWins.once ep hEp hSame

end RpcManager

end Pumpy
