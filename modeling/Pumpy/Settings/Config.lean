import Pumpy.Engine.OrderManager
import Mathlib.Data.List.Basic

/-
  The run-time configuration: the bot_config table, the routes
  that show and change it, and what the engine makes of it and
  of the environment when it starts and at each order.

  Of the engine's configuration only what the table can
  override is kept.  The database answers at a start.

  Key definitions include:
    * `getConfig`
    * `putConfig`
    * `Config.fromEnv`
    * `Config.applyDbOverrides`
    * `Engine.restart`
    * `tableAfter`
-/

namespace Pumpy

------------------------------------------------------------
-- The table and the routes
------------------------------------------------------------

/- The variables of the environment, for both processes. -/
abbrev Env := String → Option String

/- The rows of bot_config by key. -/
abbrev ConfigTable := String → Option String

/- `ALLOWED_CONFIG_KEYS`. -/
def allowedConfigKeys : List String :=
  ["SOLANA_RPC_URL", "SOLANA_RPC_URLS", "JITO_BUNDLE_URL",
    "JITO_TIP_PERCENT", "JITO_TIP_FLOOR_LAMPORTS",
    "JITO_TIP_CEILING_LAMPORTS", "JITO_SIMULATION_ENABLED",
    "MAX_POSITION_SIZE_SOL", "STOP_LOSS_PERCENT",
    "TAKE_PROFIT_PERCENT", "RUST_GRPC_URL", "PYTHON_STRATEGY_URL"]

/- What `GET /settings/config` shows for a key, if anything. -/
def displayed
    (env : Env)
    (table : ConfigTable)
    (key : String) : Option String :=
  match table key with
  | some dbVal => some dbVal
  | none => env key

/- The answer of `GET /settings/config`. -/
def getConfig
    (env : Env)
    (table : ConfigTable) : List (String × String) :=
  allowedConfigKeys.filterMap fun key =>
    (displayed env table key).map fun value => (key, value)

/-
  A `PUT /settings/config`.  The body is `none` if it is not an
  object, a value of it if it is not a string.  The database
  goes along with `statements` statements.
-/
structure PutRequest where
  body : Option (List (String × Option String))
  statements : Nat

inductive PutResponse where
  | badRequest (error : String) : PutResponse
  | saved (updated : List String) : PutResponse
  | serverError (error : String) : PutResponse
deriving DecidableEq

/- The entries of a body that are kept. -/
def configEntries
    (body : List (String × Option String)) :
    List (String × String) :=
  body.filterMap fun (key, value) =>
    if key ∈ allowedConfigKeys then
      value.map fun value => (key, value)
    else
      none

/- One entry: an empty value deletes the row. -/
def putEntry
    (table : ConfigTable)
    (entry : String × String) : ConfigTable :=
  if entry.2 = "" then
    Function.update table entry.1 none
  else
    Function.update table entry.1 (some entry.2)

/- The entries of a request that take effect. -/
def PutRequest.effective
    (request : PutRequest) : List (String × String) :=
  match request.body with
  | none => []
  | some body => (configEntries body).take request.statements

def putConfig
    (table : ConfigTable)
    (request : PutRequest) : PutResponse × ConfigTable :=
  match request.body with
  | none =>
      (.badRequest "Request body must be a JSON object", table)
  | some body =>
      let entries := configEntries body
      if entries = [] then
        (.badRequest "No valid config keys provided", table)
      else
        let table := request.effective.foldl putEntry table
        if request.statements < entries.length then
          (.serverError "Failed to save config", table)
        else
          (.saved (entries.map Prod.fst), table)

------------------------------------------------------------
-- The engine's configuration
------------------------------------------------------------

structure RpcEndpointConfig where
  url : String
  provider : String
  priority : UInt8
  wsUrl : Option String
deriving DecidableEq

structure Config where
  rpcEndpoints : List RpcEndpointConfig
  jitoBundleUrl : Option String
  maxPositionSizeSol : F64
deriving DecidableEq

def providerName (url : String) : String :=
  if containsText "helius".toList url.toList then
    "helius"
  else if containsText "quicknode".toList url.toList then
    "quicknode"
  else if containsText "alchemy".toList url.toList then
    "alchemy"
  else
    "public"

def defaultRpcUrl : String :=
  "https://api.mainnet-beta.solana.com"

/- A comma-separated list, trimmed, without what is empty. -/
def splitUrls (v : String) : List String :=
  ((splitText ',' v).map trim).filter (· ≠ "")

/- The URLs of `from_env`, of the two variables. -/
def resolveUrls (single multi : Option String) : List String :=
  let multi := (multi.map splitUrls).getD []
  match single with
  | some url => trim url :: multi
  | none => if multi ≠ [] then multi else [defaultRpcUrl]

def Config.fromEnv (env : Env) : Config where
  rpcEndpoints :=
    let urls :=
      resolveUrls (env "SOLANA_RPC_URL") (env "SOLANA_RPC_URLS")
    let wsUrls :=
      match env "SOLANA_WS_URLS" with
      | some v =>
          (splitText ',' v).map fun s =>
            if trim s = "" then none else some (trim s)
      | none => [env "SOLANA_WS_URL"]
    let priorities :=
      match env "RPC_PRIORITIES" with
      | some v =>
          (splitText ',' v).mapIdx fun i s =>
            (parseU8 (trim s)).getD (UInt8.ofNat (i + 1))
      | none => urls.mapIdx fun i _ => UInt8.ofNat (i + 1)
    let providers :=
      match env "RPC_PROVIDERS" with
      | some v => (splitText ',' v).map trim
      | none => urls.map providerName
    urls.mapIdx fun i url =>
      { url := url
        provider := providers[i]?.getD s!"provider-{i + 1}"
        priority := priorities[i]?.getD (UInt8.ofNat (i + 1))
        wsUrl := wsUrls[i]?.join }
  jitoBundleUrl := env "JITO_BUNDLE_URL"
  maxPositionSizeSol :=
    ((env "MAX_POSITION_SIZE_SOL").bind F64.parse).getD (.fin 10)

/- The endpoints `apply_db_overrides` makes of a list of URLs. -/
def endpointsOf (urls : List String) : List RpcEndpointConfig :=
  urls.mapIdx fun i url =>
    ⟨url, providerName url, UInt8.ofNat (i + 1), none⟩

def Config.overrideRpc
    (config : Config)
    (overrides : ConfigTable) : Config :=
  let dbPrimary := (overrides "SOLANA_RPC_URL").filter (· ≠ "")
  let dbFailover :=
    ((overrides "SOLANA_RPC_URLS").filter (· ≠ "")).map splitUrls
  if dbPrimary.isSome || dbFailover.isSome then
    let envPrimary :=
      (config.rpcEndpoints.head?.map RpcEndpointConfig.url).getD
        defaultRpcUrl
    let primaryUrl := dbPrimary.getD envPrimary
    let failoverUrls :=
      match dbFailover with
      | some urls => urls.filter (· ≠ primaryUrl)
      | none => (config.rpcEndpoints.drop 1).map RpcEndpointConfig.url
    { config with
      rpcEndpoints := endpointsOf (primaryUrl :: failoverUrls) }
  else
    config

def Config.overrideJito
    (config : Config)
    (overrides : ConfigTable) : Config :=
  match (overrides "JITO_BUNDLE_URL").filter (· ≠ "") with
  | some url => { config with jitoBundleUrl := some url }
  | none => config

def Config.overrideRisk
    (config : Config)
    (overrides : ConfigTable) : Config :=
  match (overrides "MAX_POSITION_SIZE_SOL").bind F64.parse with
  | some f => { config with maxPositionSizeSol := f }
  | none => config

def Config.applyDbOverrides
    (config : Config)
    (overrides : ConfigTable) : Config :=
  ((config.overrideRpc overrides).overrideJito
    overrides).overrideRisk overrides

------------------------------------------------------------
-- The engine after a restart
------------------------------------------------------------

/- The settings `run_migrations` seeds. -/
def seeds : List (String × String) :=
  [("JITO_TIP_PERCENT", "0.001"),
    ("JITO_TIP_FLOOR_LAMPORTS", "5000"),
    ("JITO_TIP_CEILING_LAMPORTS", "10000000"),
    ("JITO_SIMULATION_ENABLED", "true")]

/- `ON CONFLICT (key) DO NOTHING`. -/
def runMigrations (table : ConfigTable) : ConfigTable :=
  fun key => (table key).or (seeds.lookup key)

/- What the engine has at hand: its start-up values, and the table. -/
structure Engine where
  config : Config
  table : ConfigTable

def Engine.restart (env : Env) (table : ConfigTable) : Engine :=
  let table := runMigrations table
  ⟨(Config.fromEnv env).applyDbOverrides table, table⟩

/- The settings `execute_via_jito_minimal` reads at each order. -/
def Engine.tipPercent (engine : Engine) : F64 :=
  ((engine.table "JITO_TIP_PERCENT").bind F64.parse).getD
    (F64.round (1 / 1000))

def Engine.tipFloor (engine : Engine) : UInt64 :=
  ((engine.table "JITO_TIP_FLOOR_LAMPORTS").bind parseU64).getD 5000

def Engine.tipCeiling (engine : Engine) : UInt64 :=
  ((engine.table "JITO_TIP_CEILING_LAMPORTS").bind parseU64).getD
    10000000

def Engine.simEnabled (engine : Engine) : Bool :=
  OrderManager.simEnabledFromStr (engine.table "JITO_SIMULATION_ENABLED")

/- What may happen to the table. -/
inductive ConfigEvent where
  | put (request : PutRequest) : ConfigEvent
  | restart : ConfigEvent

def ConfigEvent.apply
    (table : ConfigTable) : ConfigEvent → ConfigTable
  | .put request => (putConfig table request).2
  | .restart => runMigrations table

/- The table after a sequence of requests and restarts. -/
def tableAfter (events : List ConfigEvent) : ConfigTable :=
  events.foldl ConfigEvent.apply fun _ => none

end Pumpy
