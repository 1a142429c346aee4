import Pumpy.Settings.Config

/-
  The configuration that is shown against the configuration in
  force: what `GET /settings/config` shows after a sequence of
  requests, and what an engine that is then restarted uses.

  The engine reads the per-order settings from the table alone,
  drops a URL of the environment when the primary comes from
  the table, ignores what it cannot read, and finds a bundle
  URL in the environment again once its row was deleted.

  Key definitions include:
    * `InForce`
    * `DriftFree`

  The main results are `table_ne_empty`, `table_of_lastPut`,
  `rpcUrls_iff`, `seedLike_iff`, `inForce_iff` and `not_inForce`.
-/

namespace Pumpy

------------------------------------------------------------
-- The property
------------------------------------------------------------

/- The entries of a request that took effect; a restart has none. -/
def ConfigEvent.entries : ConfigEvent → List (String × String)
  | .put request => request.effective
  | .restart => []

/- The value that was last put under a key, empty or not. -/
def lastPut
    (key : String)
    (events : List ConfigEvent) : Option String :=
  (((events.flatMap ConfigEvent.entries).filter
    (·.1 = key)).getLast?).map Prod.snd

/-
  The primary URL and the others, in order: surrounding white
  space and a primary that is listed again do not count.
-/
def normalUrls : List String → List String
  | [] => []
  | url :: rest => trim url :: rest.filter (· ≠ trim url)

/- The URLs of the endpoints in use, the primary first. -/
def Engine.rpcUrls (engine : Engine) : List String :=
  normalUrls (engine.config.rpcEndpoints.map RpcEndpointConfig.url)

/-
  The configuration shown after the events is the one the
  engine uses, once it is restarted.  A value that is shown and
  cannot be read is not in force.
-/
structure InForce
    (env : Env)
    (events : List ConfigEvent) : Prop where
  rpcUrl :
    ∀ url ∈ displayed env (tableAfter events) "SOLANA_RPC_URL",
      (Engine.restart env (tableAfter events)).rpcUrls.head? =
        some (trim url)
  rpcUrls :
    ∀ urls ∈ displayed env (tableAfter events) "SOLANA_RPC_URLS",
      ∃ primary,
        (Engine.restart env (tableAfter events)).rpcUrls =
          primary :: (splitUrls urls).filter (· ≠ primary)
  jito :
    (Engine.restart env (tableAfter events)).config.jitoBundleUrl =
      displayed env (tableAfter events) "JITO_BUNDLE_URL"
  maxPosition :
    ∀ v ∈ displayed env (tableAfter events) "MAX_POSITION_SIZE_SOL",
      F64.parse v =
        some (Engine.restart env
          (tableAfter events)).config.maxPositionSizeSol
  tipPercent :
    ∀ v ∈ displayed env (tableAfter events) "JITO_TIP_PERCENT",
      F64.parse v =
        some (Engine.restart env (tableAfter events)).tipPercent
  tipFloor :
    ∀ v ∈ displayed env (tableAfter events) "JITO_TIP_FLOOR_LAMPORTS",
      parseU64 v =
        some (Engine.restart env (tableAfter events)).tipFloor
  tipCeiling :
    ∀ v ∈ displayed env (tableAfter events)
        "JITO_TIP_CEILING_LAMPORTS",
      parseU64 v =
        some (Engine.restart env (tableAfter events)).tipCeiling
  simulation :
    ∀ v ∈ displayed env (tableAfter events)
        "JITO_SIMULATION_ENABLED",
      OrderManager.simEnabledFromStr (some v) =
        (Engine.restart env (tableAfter events)).simEnabled
  jitoOff :
    lastPut "JITO_BUNDLE_URL" events = some "" →
      (Engine.restart env (tableAfter events)).config.jitoBundleUrl =
        none

/-
  A setting that is read from the table alone: the value shown
  can be read, and without a row it is as good as the seed.
-/
def SeedLike
    {α : Type}
    (parse : String → Option α)
    (seed : String)
    (env : Env)
    (table : ConfigTable)
    (key : String) : Prop :=
  ∀ v ∈ displayed env table key,
    (parse v).isSome ∧ (table key = none → parse v = parse seed)

/- Where the two ways of putting the configuration together agree. -/
structure DriftFree
    (env : Env)
    (events : List ConfigEvent) : Prop where
  -- A primary from the table drops the first URL of a list from
  -- the environment, which without a primary there stands first.
  failover :
    env "SOLANA_RPC_URL" = none →
      tableAfter events "SOLANA_RPC_URLS" = none →
        ∀ url ∈ tableAfter events "SOLANA_RPC_URL",
          ∀ urls ∈ env "SOLANA_RPC_URLS",
            ∀ first ∈ (splitUrls urls).head?, first = trim url
  maxPosition :
    ∀ v ∈ displayed env (tableAfter events) "MAX_POSITION_SIZE_SOL",
      (F64.parse v).isSome
  tipPercent :
    SeedLike F64.parse "0.001" env (tableAfter events)
      "JITO_TIP_PERCENT"
  tipFloor :
    SeedLike parseU64 "5000" env (tableAfter events)
      "JITO_TIP_FLOOR_LAMPORTS"
  tipCeiling :
    SeedLike parseU64 "10000000" env (tableAfter events)
      "JITO_TIP_CEILING_LAMPORTS"
  simulation :
    tableAfter events "JITO_SIMULATION_ENABLED" = none →
      ∀ v ∈ env "JITO_SIMULATION_ENABLED",
        OrderManager.simEnabledFromStr (some v) = true
  jitoOff :
    lastPut "JITO_BUNDLE_URL" events = some "" →
      env "JITO_BUNDLE_URL" = none

------------------------------------------------------------
-- The table
------------------------------------------------------------

variable {env : Env} {table : ConfigTable} {key : String}
variable {events : List ConfigEvent}

/- What the entries of a request make of a row. -/
theorem foldl_putEntry
    (entries : List (String × String))
    (table : ConfigTable)
    (key : String) :
    entries.foldl putEntry table key =
      match (entries.filter (·.1 = key)).getLast? with
      | none => table key
      | some entry => if entry.2 = "" then none else some entry.2 := by
  induction entries using List.reverseRecOn with
  | nil => rfl
  | append_singleton entries entry ih =>
      rw [List.foldl_append, List.foldl_cons, List.foldl_nil,
        List.filter_append, List.filter_singleton]
      by_cases hKey : entry.1 = key
      · simp [putEntry, hKey]
        split <;> simp [Function.update]
      · simp only [hKey, decide_false, cond_false, List.append_nil]
        rw [← ih, putEntry]
        split <;> simp [Function.update, Ne.symm hKey]

theorem putConfig_table
    (table : ConfigTable)
    (request : PutRequest) :
    (putConfig table request).2 =
      request.effective.foldl putEntry table := by
  unfold putConfig
  cases hBody : request.body with
  | none => simp [PutRequest.effective, hBody]
  | some body =>
      dsimp only
      split
      · next hNone => simp [PutRequest.effective, hBody, hNone]
      · split <;> rfl

theorem seeds_ne_empty
    (key : String) :
    seeds.lookup key ≠ some "" := by
  simp only [seeds, List.lookup_cons, List.lookup_nil]
  split
  · decide
  · split
    · decide
    · split
      · decide
      · split
        · decide
        · decide

/- No row is ever empty. -/
theorem table_ne_empty
    (events : List ConfigEvent)
    (key : String) :
    tableAfter events key ≠ some "" := by
  induction events using List.reverseRecOn with
  | nil => simp [tableAfter]
  | append_singleton events e ih =>
      rw [tableAfter, List.foldl_append]
      change ConfigEvent.apply (tableAfter events) e key ≠ some ""
      cases e with
      | put request =>
          rw [ConfigEvent.apply, putConfig_table, foldl_putEntry]
          split
          · exact ih
          · split <;> simp_all
      | restart =>
          rw [ConfigEvent.apply, runMigrations]
          cases hRow : tableAfter events key with
          | none => exact seeds_ne_empty key
          | some v =>
              rw [hRow] at ih
              exact ih

/- A row that is not seeded is the value last put there. -/
theorem table_of_lastPut
    (hSeed : seeds.lookup key = none)
    (events : List ConfigEvent) :
    tableAfter events key =
      (lastPut key events).filter (· ≠ "") := by
  induction events using List.reverseRecOn with
  | nil => rfl
  | append_singleton events e ih =>
      rw [tableAfter, List.foldl_append]
      change ConfigEvent.apply (tableAfter events) e key = _
      cases e with
      | put request =>
          rw [ConfigEvent.apply, putConfig_table, foldl_putEntry,
            lastPut, List.flatMap_append, List.filter_append,
            List.getLast?_append]
          simp only [List.flatMap_singleton, ConfigEvent.entries]
          cases (request.effective.filter (·.1 = key)).getLast? with
          | none => exact ih
          | some entry =>
              by_cases hEmpty : entry.2 = "" <;>
                simp [hEmpty, Option.filter]
      | restart =>
          rw [ConfigEvent.apply, runMigrations, hSeed, Option.or_none,
            ih, lastPut, lastPut, List.flatMap_append]
          simp [ConfigEvent.entries]

theorem runMigrations_of_unseeded
    (hSeed : seeds.lookup key = none) :
    runMigrations table key = table key := by
  rw [runMigrations, hSeed, Option.or_none]

------------------------------------------------------------
-- The configuration after a restart
------------------------------------------------------------

/- The overrides of one setting leave the others alone. -/
@[simp] theorem jitoBundleUrl_overrideRpc (config : Config) :
    (config.overrideRpc table).jitoBundleUrl =
      config.jitoBundleUrl := by
  simp only [Config.overrideRpc]
  split <;> rfl

@[simp] theorem maxPositionSizeSol_overrideRpc (config : Config) :
    (config.overrideRpc table).maxPositionSizeSol =
      config.maxPositionSizeSol := by
  simp only [Config.overrideRpc]
  split <;> rfl

@[simp] theorem rpcEndpoints_overrideJito (config : Config) :
    (config.overrideJito table).rpcEndpoints =
      config.rpcEndpoints := by
  unfold Config.overrideJito
  split <;> rfl

@[simp] theorem maxPositionSizeSol_overrideJito (config : Config) :
    (config.overrideJito table).maxPositionSizeSol =
      config.maxPositionSizeSol := by
  unfold Config.overrideJito
  split <;> rfl

@[simp] theorem rpcEndpoints_overrideRisk (config : Config) :
    (config.overrideRisk table).rpcEndpoints =
      config.rpcEndpoints := by
  unfold Config.overrideRisk
  split <;> rfl

@[simp] theorem jitoBundleUrl_overrideRisk (config : Config) :
    (config.overrideRisk table).jitoBundleUrl =
      config.jitoBundleUrl := by
  unfold Config.overrideRisk
  split <;> rfl

theorem restart_jitoBundleUrl
    (env : Env)
    (table : ConfigTable) :
    (Engine.restart env table).config.jitoBundleUrl =
      ((table "JITO_BUNDLE_URL").filter (· ≠ "")).or
        (env "JITO_BUNDLE_URL") := by
  have hRow :
      runMigrations table "JITO_BUNDLE_URL" =
        table "JITO_BUNDLE_URL" :=
    runMigrations_of_unseeded (by decide)
  simp only [Engine.restart, Config.applyDbOverrides,
    jitoBundleUrl_overrideRisk, Config.overrideJito, hRow]
  split
  · next url hSome => rw [hSome]; rfl
  · next hNone => rw [hNone]; simp [Config.fromEnv]

theorem restart_maxPositionSizeSol
    (env : Env)
    (table : ConfigTable) :
    (Engine.restart env table).config.maxPositionSizeSol =
      ((((table "MAX_POSITION_SIZE_SOL").bind F64.parse).or
        ((env "MAX_POSITION_SIZE_SOL").bind F64.parse))).getD
          (.fin 10) := by
  have hRow :
      runMigrations table "MAX_POSITION_SIZE_SOL" =
        table "MAX_POSITION_SIZE_SOL" :=
    runMigrations_of_unseeded (by decide)
  simp only [Engine.restart, Config.applyDbOverrides,
    Config.overrideRisk, hRow]
  split
  · next f hSome => rw [hSome]; rfl
  · next hNone => rw [hNone]; simp [Config.fromEnv]

/- Numbered records of a list, read back. -/
private theorem map_mapIdx_cancel
    {α β : Type}
    {f : Nat → α → β}
    {g : β → α}
    (hBack : ∀ i a, g (f i a) = a)
    (xs : List α) :
    (xs.mapIdx f).map g = xs := by
  apply List.ext_getElem?
  intro i
  simp [Function.comp_def, hBack]

/- The URLs an engine starts with. -/
theorem map_url_fromEnv
    (env : Env) :
    (Config.fromEnv env).rpcEndpoints.map RpcEndpointConfig.url =
      resolveUrls (env "SOLANA_RPC_URL") (env "SOLANA_RPC_URLS") :=
  map_mapIdx_cancel (fun _ _ => rfl) _

theorem map_url_endpointsOf
    (urls : List String) :
    (endpointsOf urls).map RpcEndpointConfig.url = urls :=
  map_mapIdx_cancel (fun _ _ => rfl) _

/- The first URL of the environment, or the default. -/
def envPrimary (env : Env) : String :=
  ((resolveUrls (env "SOLANA_RPC_URL")
    (env "SOLANA_RPC_URLS")).head?).getD defaultRpcUrl

theorem restart_urls
    (env : Env)
    (table : ConfigTable)
    (hUrl : table "SOLANA_RPC_URL" ≠ some "")
    (hUrls : table "SOLANA_RPC_URLS" ≠ some "") :
    (Engine.restart env table).config.rpcEndpoints.map
        RpcEndpointConfig.url =
      match table "SOLANA_RPC_URL", table "SOLANA_RPC_URLS" with
      | none, none =>
          resolveUrls (env "SOLANA_RPC_URL") (env "SOLANA_RPC_URLS")
      | some url, none =>
          url :: (resolveUrls (env "SOLANA_RPC_URL")
            (env "SOLANA_RPC_URLS")).drop 1
      | none, some urls =>
          envPrimary env ::
            (splitUrls urls).filter (· ≠ envPrimary env)
      | some url, some urls =>
          url :: (splitUrls urls).filter (· ≠ url) := by
  have hUrlRow :
      runMigrations table "SOLANA_RPC_URL" =
        table "SOLANA_RPC_URL" :=
    runMigrations_of_unseeded (by decide)
  have hUrlsRow :
      runMigrations table "SOLANA_RPC_URLS" =
        table "SOLANA_RPC_URLS" :=
    runMigrations_of_unseeded (by decide)
  have hKept :
      ∀ v : Option String, v ≠ some "" → v.filter (· ≠ "") = v := by
    intro v hNe
    cases v with
    | none => rfl
    | some v => simpa [Option.filter] using hNe
  have hFirst :
      ((Config.fromEnv env).rpcEndpoints.head?.map
        RpcEndpointConfig.url).getD defaultRpcUrl = envPrimary env := by
    rw [← List.head?_map, map_url_fromEnv]
    rfl
  simp only [Engine.restart, Config.applyDbOverrides,
    rpcEndpoints_overrideRisk, rpcEndpoints_overrideJito,
    Config.overrideRpc, hUrlRow, hUrlsRow, hKept _ hUrl,
    hKept _ hUrls, hFirst]
  cases table "SOLANA_RPC_URL" with
  | none =>
      cases table "SOLANA_RPC_URLS" with
      | none => simp [map_url_fromEnv]
      | some urls => simp [map_url_endpointsOf]
  | some url =>
      cases table "SOLANA_RPC_URLS" with
      | none => simp [map_url_endpointsOf, ← map_url_fromEnv]
      | some urls => simp [map_url_endpointsOf]

------------------------------------------------------------
-- RPC endpoints
------------------------------------------------------------

theorem mem_splitUrls
    {url v : String}
    (hMem : url ∈ splitUrls v) :
    trim url = url := by
  rcases List.mem_map.mp (List.mem_of_mem_filter hMem) with
    ⟨piece, _, rfl⟩
  exact trim_trim piece

/- The others are those of a list, but for the primary. -/
theorem normalUrls_iff
    {url : String}
    {rest urls : List String} :
    (∃ primary,
        normalUrls (url :: rest) =
          primary :: urls.filter (· ≠ primary)) ↔
      rest.filter (· ≠ trim url) = urls.filter (· ≠ trim url) := by
  constructor
  · rintro ⟨primary, hSame⟩
    rcases List.cons.inj hSame with ⟨hPrimary, hOthers⟩
    rw [hOthers, hPrimary]
  · intro hOthers
    exact ⟨trim url, congrArg (trim url :: ·) hOthers⟩

/- Leaving out the primary first makes no difference. -/
theorem filter_primary
    {urls : List String}
    (hTrimmed : ∀ u ∈ urls, trim u = u)
    (url : String) :
    (urls.filter (· ≠ url)).filter (· ≠ trim url) =
      urls.filter (· ≠ trim url) := by
  rw [List.filter_filter]
  apply List.filter_congr
  intro u hMem
  by_cases hSame : u = url
  · have hTrim : u = trim url := by
      rw [← hSame, hTrimmed u hMem]
    simp [← hTrim]
  · simp [hSame]

/- A primary from the table over a list from the environment. -/
theorem primary_iff
    (env : Env)
    (url urls : String)
    (hUrls : env "SOLANA_RPC_URLS" = some urls) :
    ((resolveUrls (env "SOLANA_RPC_URL")
          (env "SOLANA_RPC_URLS")).drop 1).filter (· ≠ trim url) =
        (splitUrls urls).filter (· ≠ trim url) ↔
      (env "SOLANA_RPC_URL" = none →
        ∀ first ∈ (splitUrls urls).head?, first = trim url) := by
  rw [hUrls]
  cases env "SOLANA_RPC_URL" with
  | some v => simp [resolveUrls]
  | none =>
      cases hList : splitUrls urls with
      | nil => simp [resolveUrls, hList]
      | cons first rest =>
          by_cases hSame : first = trim url <;>
            simp [resolveUrls, hList, hSame]

/- A list with its own first URL as the primary. -/
theorem own_primary
    (env : Env)
    (urls : String)
    (hUrls : env "SOLANA_RPC_URLS" = some urls) :
    ∃ primary,
      normalUrls
          (resolveUrls (env "SOLANA_RPC_URL")
            (env "SOLANA_RPC_URLS")) =
        primary :: (splitUrls urls).filter (· ≠ primary) := by
  rw [hUrls]
  cases env "SOLANA_RPC_URL" with
  | some v =>
      apply normalUrls_iff.mpr
      simp
  | none =>
      cases hList : splitUrls urls with
      | nil =>
          simp only [resolveUrls, Option.map_some, hList,
            Option.getD_some]
          exact normalUrls_iff.mpr rfl
      | cons first rest =>
          have hTrim : trim first = first := by
            apply mem_splitUrls (v := urls)
            rw [hList]
            exact List.mem_cons_self
          simp only [resolveUrls, Option.map_some, hList,
            Option.getD_some]
          apply normalUrls_iff.mpr
          simp [hTrim]

/- The primary in use is the one shown. -/
theorem rpcUrl_displayed
    (env : Env)
    (events : List ConfigEvent) :
    ∀ url ∈ displayed env (tableAfter events) "SOLANA_RPC_URL",
      (Engine.restart env (tableAfter events)).rpcUrls.head? =
        some (trim url) := by
  intro url hUrl
  rw [Engine.rpcUrls, restart_urls env _ (table_ne_empty events _)
    (table_ne_empty events _)]
  simp only [displayed] at hUrl
  cases hRow : tableAfter events "SOLANA_RPC_URL" with
  | some row =>
      rw [hRow] at hUrl
      cases hUrl
      cases tableAfter events "SOLANA_RPC_URLS" <;> rfl
  | none =>
      rw [hRow] at hUrl
      have hEnv : env "SOLANA_RPC_URL" = some url := hUrl
      cases tableAfter events "SOLANA_RPC_URLS" with
      | none => simp [hEnv, resolveUrls, normalUrls]
      | some urls =>
          simp [normalUrls, envPrimary, hEnv, resolveUrls]

/- The others are those shown, unless one is dropped. -/
theorem rpcUrls_iff
    (env : Env)
    (events : List ConfigEvent) :
    (∀ urls ∈ displayed env (tableAfter events) "SOLANA_RPC_URLS",
        ∃ primary,
          (Engine.restart env (tableAfter events)).rpcUrls =
            primary :: (splitUrls urls).filter (· ≠ primary)) ↔
      (env "SOLANA_RPC_URL" = none →
        tableAfter events "SOLANA_RPC_URLS" = none →
          ∀ url ∈ tableAfter events "SOLANA_RPC_URL",
            ∀ urls ∈ env "SOLANA_RPC_URLS",
              ∀ first ∈ (splitUrls urls).head?, first = trim url) := by
  have hTrimmed :
      ∀ urls, ∀ u ∈ splitUrls urls, trim u = u :=
    fun _ _ hMem => mem_splitUrls hMem
  rw [Engine.rpcUrls, restart_urls env _ (table_ne_empty events _)
    (table_ne_empty events _)]
  simp only [displayed]
  cases tableAfter events "SOLANA_RPC_URL" with
  | none =>
      cases tableAfter events "SOLANA_RPC_URLS" with
      | none =>
          simpa using own_primary env
      | some urls =>
          have hOthers := filter_primary (hTrimmed urls) (envPrimary env)
          simpa using normalUrls_iff.mpr hOthers
  | some url =>
      cases tableAfter events "SOLANA_RPC_URLS" with
      | none =>
          dsimp only
          constructor
          · intro hShown hNone _ url' hUrl urls hUrls
            cases hUrl
            exact (primary_iff env url urls hUrls).mp
              (normalUrls_iff.mp (hShown urls hUrls)) hNone
          · intro hFirst urls hUrls
            apply normalUrls_iff.mpr
            apply (primary_iff env url urls hUrls).mpr
            intro hNone
            exact hFirst hNone rfl url rfl urls hUrls
      | some urls =>
          have hOthers := filter_primary (hTrimmed urls) url
          simpa using normalUrls_iff.mpr hOthers

------------------------------------------------------------
-- Settings read at each order
------------------------------------------------------------

/- A seeded setting is in force if what is shown is as good. -/
theorem seedLike_iff
    {α : Type}
    {parse : String → Option α}
    {seed : String}
    {fallback : α}
    (hSeed : seeds.lookup key = some seed)
    (hReads : (parse seed).isSome) :
    (∀ v ∈ displayed env table key,
        parse v =
          some (((runMigrations table key).bind parse).getD
            fallback)) ↔
      SeedLike parse seed env table key := by
  cases hRow : table key with
  | some row =>
      have hTable : runMigrations table key = some row := by
        simp [runMigrations, hRow]
      simp only [SeedLike, displayed, hRow, hTable]
      cases hParse : parse row with
      | none => simp [hParse]
      | some value => simp [hParse]
  | none =>
      have hTable : runMigrations table key = some seed := by
        simp [runMigrations, hRow, hSeed]
      rcases Option.isSome_iff_exists.mp hReads with ⟨value, hValue⟩
      simp only [SeedLike, displayed, hRow, hTable]
      cases env key with
      | none => simp
      | some v =>
          simp only [Option.mem_def, Option.some.injEq, forall_eq',
            Option.bind_some, hValue, Option.getD_some, true_implies]
          constructor
          · exact fun hSame => ⟨by simp [hSame], hSame⟩
          · exact fun hBoth => hBoth.2

theorem simulation_iff
    (env : Env)
    (table : ConfigTable) :
    (∀ v ∈ displayed env table "JITO_SIMULATION_ENABLED",
        OrderManager.simEnabledFromStr (some v) =
          (Engine.restart env table).simEnabled) ↔
      (table "JITO_SIMULATION_ENABLED" = none →
        ∀ v ∈ env "JITO_SIMULATION_ENABLED",
          OrderManager.simEnabledFromStr (some v) = true) := by
  have hSeed :
      OrderManager.simEnabledFromStr (some "true") = true := by
    decide
  simp only [displayed, Engine.simEnabled, Engine.restart]
  cases hRow : table "JITO_SIMULATION_ENABLED" with
  | some row =>
      have hTable :
          runMigrations table "JITO_SIMULATION_ENABLED" = some row := by
        simp [runMigrations, hRow]
      simp [hTable]
  | none =>
      have hTable :
          runMigrations table "JITO_SIMULATION_ENABLED" =
            some "true" := by
        simp [runMigrations, hRow, seeds, List.lookup_cons]
      simp [hTable, hSeed]

theorem maxPosition_iff
    (env : Env)
    (table : ConfigTable) :
    (∀ v ∈ displayed env table "MAX_POSITION_SIZE_SOL",
        F64.parse v =
          some (Engine.restart env table).config.maxPositionSizeSol) ↔
      ∀ v ∈ displayed env table "MAX_POSITION_SIZE_SOL",
        (F64.parse v).isSome := by
  rw [restart_maxPositionSizeSol]
  simp only [displayed]
  cases table "MAX_POSITION_SIZE_SOL" with
  | some row => cases hParse : F64.parse row <;> simp [hParse]
  | none =>
      cases env "MAX_POSITION_SIZE_SOL" with
      | none => simp
      | some v => cases hParse : F64.parse v <;> simp [hParse]

------------------------------------------------------------
-- The bundle URL
------------------------------------------------------------

theorem jito_displayed
    (env : Env)
    (events : List ConfigEvent) :
    (Engine.restart env (tableAfter events)).config.jitoBundleUrl =
      displayed env (tableAfter events) "JITO_BUNDLE_URL" := by
  rw [restart_jitoBundleUrl, displayed]
  have hNe := table_ne_empty events "JITO_BUNDLE_URL"
  cases hRow : tableAfter events "JITO_BUNDLE_URL" with
  | none => rfl
  | some url =>
      have hUrl : url ≠ "" := by
        intro hEmpty
        rw [hRow, hEmpty] at hNe
        exact hNe rfl
      simp [Option.filter, hUrl]

/- A bundle URL that was emptied is that of the environment again. -/
theorem jito_of_emptied
    (env : Env)
    (hEmptied : lastPut "JITO_BUNDLE_URL" events = some "") :
    (Engine.restart env (tableAfter events)).config.jitoBundleUrl =
      env "JITO_BUNDLE_URL" := by
  have hRow : tableAfter events "JITO_BUNDLE_URL" = none := by
    rw [table_of_lastPut (by decide), hEmptied]
    rfl
  rw [jito_displayed, displayed, hRow]

------------------------------------------------------------
-- The condition
------------------------------------------------------------

theorem jitoOff_iff
    (env : Env)
    (events : List ConfigEvent) :
    (lastPut "JITO_BUNDLE_URL" events = some "" →
        (Engine.restart env
          (tableAfter events)).config.jitoBundleUrl = none) ↔
      (lastPut "JITO_BUNDLE_URL" events = some "" →
        env "JITO_BUNDLE_URL" = none) := by
  constructor
  · intro hOff hEmptied
    rw [← jito_of_emptied env hEmptied]
    exact hOff hEmptied
  · intro hUnset hEmptied
    rw [jito_of_emptied env hEmptied]
    exact hUnset hEmptied

theorem tipPercent_iff
    (env : Env)
    (table : ConfigTable) :
    (∀ v ∈ displayed env table "JITO_TIP_PERCENT",
        F64.parse v = some (Engine.restart env table).tipPercent) ↔
      SeedLike F64.parse "0.001" env table "JITO_TIP_PERCENT" :=
  seedLike_iff (by decide) (by decide +kernel)

theorem tipFloor_iff
    (env : Env)
    (table : ConfigTable) :
    (∀ v ∈ displayed env table "JITO_TIP_FLOOR_LAMPORTS",
        parseU64 v = some (Engine.restart env table).tipFloor) ↔
      SeedLike parseU64 "5000" env table "JITO_TIP_FLOOR_LAMPORTS" :=
  seedLike_iff (by decide) (by decide +kernel)

theorem tipCeiling_iff
    (env : Env)
    (table : ConfigTable) :
    (∀ v ∈ displayed env table "JITO_TIP_CEILING_LAMPORTS",
        parseU64 v = some (Engine.restart env table).tipCeiling) ↔
      SeedLike parseU64 "10000000" env table
        "JITO_TIP_CEILING_LAMPORTS" :=
  seedLike_iff (by decide) (by decide +kernel)

/-
  The configuration shown is in force after a restart exactly
  if no setting drifts.
-/
theorem inForce_iff
    (env : Env)
    (events : List ConfigEvent) :
    InForce env events ↔ DriftFree env events := by
  constructor
  · intro hForce
    exact {
      failover := (rpcUrls_iff env events).mp hForce.rpcUrls
      maxPosition := (maxPosition_iff env _).mp hForce.maxPosition
      tipPercent := (tipPercent_iff env _).mp hForce.tipPercent
      tipFloor := (tipFloor_iff env _).mp hForce.tipFloor
      tipCeiling := (tipCeiling_iff env _).mp hForce.tipCeiling
      simulation := (simulation_iff env _).mp hForce.simulation
      jitoOff := (jitoOff_iff env events).mp hForce.jitoOff }
  · intro hFree
    exact {
      rpcUrl := rpcUrl_displayed env events
      rpcUrls := (rpcUrls_iff env events).mpr hFree.failover
      jito := jito_displayed env events
      maxPosition := (maxPosition_iff env _).mpr hFree.maxPosition
      tipPercent := (tipPercent_iff env _).mpr hFree.tipPercent
      tipFloor := (tipFloor_iff env _).mpr hFree.tipFloor
      tipCeiling := (tipCeiling_iff env _).mpr hFree.tipCeiling
      simulation := (simulation_iff env _).mpr hFree.simulation
      jitoOff := (jitoOff_iff env events).mpr hFree.jitoOff }

/-
  The runbook's way to turn bundles off, with a URL in the
  environment: the restarted engine has a bundle client again.
-/
theorem not_inForce :
    ∃ env events, ¬InForce env events := by
  refine ⟨fun key =>
      if key = "JITO_BUNDLE_URL" then
        some "https://mainnet.block-engine.jito.wtf"
      else
        none,
    [.restart, .put ⟨some [("JITO_BUNDLE_URL", some "")], 1⟩], ?_⟩
  intro hForce
  have hOff := hForce.jitoOff (by decide)
  rw [jito_of_emptied _ (by decide)] at hOff
  cases hOff

end Pumpy
