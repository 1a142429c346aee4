import Pumpy.Api.RpcGuard
import Pumpy.Settings.WalletKey

/-
  What the settings routes of the API server tell of its secrets
  (artifacts/api-server/src/routes/settings.ts): the private key,
  the URL of the database, and the file of the key.

  Key definitions include:
    * `maskString`
    * `settingsStatus`
    * `SettingsRequest`
    * `Server.transcript`
    * `Indistinguishable`

  The main result is `indistinguishable_iff`: no requests, however
  many, tell two servers apart whose keys have one public half.
-/

------------------------------------------------------------
-- Texts of JavaScript
------------------------------------------------------------

namespace Js

/- The UTF-16 units of a character. -/
def unitsOf (c : Char) : List ℕ :=
  if c.toNat < 0x10000 then
    [c.toNat]
  else
    [0xD800 + (c.toNat - 0x10000) / 0x400,
      0xDC00 + (c.toNat - 0x10000) % 0x400]

def utf16 (s : String) : List ℕ :=
  s.toList.flatMap unitsOf

/- A value that is defined, and not the empty text. -/
def truthy (v : Option String) : Option String :=
  v.filter (· ≠ "")

end Js

namespace Pumpy

------------------------------------------------------------
-- The Catalogue
------------------------------------------------------------

/- `maskString(val)`, as UTF-16 units. -/
def maskString (val : Option String) : List ℕ :=
  match Js.truthy val with
  | none => []
  | some val =>
      let units := Js.utf16 val
      if units.length ≤ 8 then
        Js.utf16 "****"
      else
        units.take 4 ++ Js.utf16 "****" ++ units.drop (units.length - 4)

structure EnvVarDef where
  key : String
  required : Bool
  description : String
  setIn : String

/- `ENV_VAR_DEFS`. -/
def envVarDefs : List EnvVarDef :=
  [{ key := "SOLANA_RPC_URL"
     required := true
     description :=
       "Solana JSON-RPC endpoint (e.g. your Helius / QuickNode " ++
       "URL)."
     setIn := "Settings page or Replit Secrets panel" },
    { key := "SOLANA_RPC_URLS"
      required := false
      description :=
        "Comma-separated RPC endpoints for automatic failover."
      setIn := "Settings page or Replit Secrets panel" },
    { key := "WALLET_PRIVATE_KEY"
      required := true
      description :=
        "Wallet private key as a base58 string or JSON byte array " ++
        "(64 bytes)."
      setIn := "Replit Secrets panel" },
    { key := "KEYPAIR_PATH"
      required := false
      description :=
        "Path to a Solana keypair JSON file on disk."
      setIn :=
        "Replit Files panel — upload the file, then set the path " ++
        "here" },
    { key := "DATABASE_URL"
      required := true
      description :=
        "PostgreSQL connection string. Auto-provided when you " ++
        "attach a Replit database."
      setIn := "Replit Database tab (auto-injected)" },
    { key := "JITO_BUNDLE_URL"
      required := false
      description :=
        "Jito MEV bundle submission endpoint. Enables " ++
        "front-running protection."
      setIn := "Settings page or Replit Secrets panel" },
    { key := "JITO_TIP_PERCENT"
      required := false
      description :=
        "Jito tip as a fraction of trade value (e.g. 0.001 = " ++
        "0.1%). Clamped to floor/ceiling."
      setIn := "Settings page" },
    { key := "JITO_TIP_FLOOR_LAMPORTS"
      required := false
      description :=
        "Minimum Jito tip in lamports regardless of trade size " ++
        "(e.g. 5000 = 0.000005 SOL)."
      setIn := "Settings page" },
    { key := "JITO_TIP_CEILING_LAMPORTS"
      required := false
      description :=
        "Maximum Jito tip in lamports regardless of trade size " ++
        "(e.g. 10000000 = 0.01 SOL)."
      setIn := "Settings page" },
    { key := "JITO_SIMULATION_ENABLED"
      required := false
      description :=
        "Pre-submission transaction simulation gate. Set to 'true' " ++
        "or 'false'."
      setIn := "Settings page" },
    { key := "PYTHON_STRATEGY_URL"
      required := false
      description :=
        "URL of the Python strategy engine. Defaults to " ++
        "http://localhost:8001."
      setIn := "Settings page or Replit Secrets panel" },
    { key := "RUST_GRPC_URL"
      required := false
      description :=
        "gRPC address of the Rust trading engine. Defaults to " ++
        "localhost:50051."
      setIn := "Settings page or Replit Secrets panel" },
    { key := "GRPC_PORT"
      required := false
      description :=
        "Port the Rust gRPC server listens on (default: 50051)."
      setIn := "Replit Secrets panel" },
    { key := "METRICS_PORT"
      required := false
      description :=
        "Port for the Prometheus /metrics endpoint (default: 9091)."
      setIn := "Replit Secrets panel" },
    { key := "MAX_POSITION_SIZE_SOL"
      required := false
      description :=
        "Maximum SOL amount allowed per individual trade position."
      setIn := "Settings page or Replit Secrets panel" },
    { key := "STOP_LOSS_PERCENT"
      required := false
      description :=
        "Stop-loss exit threshold as a percentage (e.g. 10 = exit " ++
        "at −10%)."
      setIn := "Settings page or Replit Secrets panel" },
    { key := "TAKE_PROFIT_PERCENT"
      required := false
      description :=
        "Take-profit exit threshold as a percentage (e.g. 50 = " ++
        "exit at +50%)."
      setIn := "Settings page or Replit Secrets panel" }]

def secretKeys : List String :=
  ["WALLET_PRIVATE_KEY", "DATABASE_URL"]

------------------------------------------------------------
-- The Status
------------------------------------------------------------

/- What the process has: its environment, and the files. -/
structure Server where
  env : Env
  files : Files

structure EnvVarStatus where
  key : String
  required : Bool
  description : String
  setIn : String
  set : Bool
  source : Option String
  masked : List ℕ

structure WalletInfo where
  pubkey : Option String
  source : Option String
  configured : Bool

structure RpcInfo where
  url : Option (List ℕ)
  configured : Bool
  latencyMs : Option ℕ
  online : Bool

structure SettingsStatus where
  wallet : WalletInfo
  rpc : RpcInfo
  envVars : List EnvVarStatus

namespace Server

/- `urls?.split(",")[0]?.trim()`. -/
def firstUrl (urls : Option String) : Option String :=
  urls.bind fun urls => (splitText ',' urls).head?.map Js.trim

/- The URL that is asked for its health. -/
def rpcUrl (server : Server) (dbConfig : ConfigTable) : Option String :=
  (Js.truthy (dbConfig "SOLANA_RPC_URL")).or
    ((Js.truthy (server.env "SOLANA_RPC_URL")).or
      ((Js.truthy (firstUrl (dbConfig "SOLANA_RPC_URLS"))).or
        (Js.truthy (firstUrl (server.env "SOLANA_RPC_URLS")))))

/- What is told of one variable. -/
def envVarStatus
    (server : Server)
    (dbConfig : ConfigTable)
    (d : EnvVarDef) : EnvVarStatus :=
  let envVal := Js.truthy (server.env d.key)
  let dbVal :=
    if d.key ∈ allowedConfigKeys then Js.truthy (dbConfig d.key)
    else none
  let effectiveVal := dbVal.or envVal
  { key := d.key
    required := d.required
    description := d.description
    setIn := d.setIn
    set := effectiveVal.isSome
    source :=
      if dbVal.isSome then some "db"
      else if envVal.isSome then some "env"
      else none
    masked :=
      if effectiveVal.isSome then
        if d.key ∈ secretKeys then Js.utf16 "****"
        else maskString effectiveVal
      else
        [] }

/- GET `/settings/status`; a URL answers to `ping` in its time. -/
def settingsStatus
    (server : Server)
    (dbConfig : ConfigTable)
    (ping : String → Option ℕ) : SettingsStatus :=
  let walletInfo := deriveWalletPubkey server.env server.files
  let url := server.rpcUrl dbConfig
  let latencyMs := url.bind ping
  { wallet :=
      { pubkey := walletInfo.pubkey
        source := walletInfo.source
        configured :=
          (truthyVar server.env "WALLET_PRIVATE_KEY").isSome ||
            (truthyVar server.env "KEYPAIR_PATH").isSome }
    rpc :=
      { url := url.map fun url => maskString (some url)
        configured := url.isSome
        latencyMs := latencyMs
        online := latencyMs.isSome }
    envVars := envVarDefs.map (server.envVarStatus dbConfig) }

end Server

------------------------------------------------------------
-- Requests
------------------------------------------------------------

/-
  The requests of the settings page, with what the database and
  the network do while they are handled.
-/
inductive SettingsRequest where
  | status
      (dbAnswers : Bool)
      (ping : String → Option ℕ) : SettingsRequest
  | config (dbAnswers : Bool) : SettingsRequest
  | put (request : PutRequest) : SettingsRequest
  | testRpc
      (fetched : String → Option ℕ)
      (body : TestRpcBody) : SettingsRequest

inductive SettingsResponse where
  | status (answer : SettingsStatus) : SettingsResponse
  | config (merged : List (String × String)) : SettingsResponse
  | put (answer : PutResponse) : SettingsResponse
  | testRpc (answer : TestRpcResponse) : SettingsResponse

/- What can be seen of a request: the response, and what is fetched. -/
structure Observation where
  response : SettingsResponse
  fetched : List String

/- `loadDbConfig()`. -/
def loadDbConfig (table : ConfigTable) (dbAnswers : Bool) : ConfigTable :=
  if dbAnswers then table else fun _ => none

namespace Server

/- One request; `newUrl` is `new URL(urlStr)`. -/
def handle
    (newUrl : String → Option Url)
    (server : Server)
    (table : ConfigTable) :
    SettingsRequest → Observation × ConfigTable
  | .status dbAnswers ping =>
      let dbConfig := loadDbConfig table dbAnswers
      (⟨.status (server.settingsStatus dbConfig ping),
          (server.rpcUrl dbConfig).toList⟩,
        table)
  | .config dbAnswers =>
      (⟨.config (getConfig server.env (loadDbConfig table dbAnswers)),
          []⟩,
        table)
  | .put request =>
      (⟨.put (putConfig table request).1, []⟩,
        (putConfig table request).2)
  | .testRpc fetched body =>
      (⟨.testRpc (testRpc newUrl fetched body).1,
          (testRpc newUrl fetched body).2⟩,
        table)

/- All that is seen of some requests, one after the other. -/
def transcript
    (newUrl : String → Option Url)
    (server : Server) :
    ConfigTable → List SettingsRequest → List Observation
  | _, [] => []
  | table, request :: requests =>
      (server.handle newUrl table request).1 ::
        server.transcript newUrl (server.handle newUrl table request).2
          requests

end Server

/- No requests tell the servers apart. -/
def Indistinguishable
    (newUrl : String → Option Url)
    (a b : Server) : Prop :=
  ∀ table requests,
    a.transcript newUrl table requests =
      b.transcript newUrl table requests

/- They differ in secrets, and variables of no interest, at most. -/
def SamePublic (a b : Server) : Prop :=
  ∀ d ∈ envVarDefs, d.key ∉ secretKeys → a.env d.key = b.env d.key

/- The process has a private key of these bytes. -/
structure HoldsKey (server : Server) (bytes : List UInt8) : Prop where
  key :
    ((truthyVar server.env "WALLET_PRIVATE_KEY").bind fun rawKey =>
      keyBytes (Js.trim rawKey)) = some bytes
  length : bytes.length = 64

/- Whether there is a URL of a database. -/
def Server.hasDatabase (server : Server) : Bool :=
  (truthyVar server.env "DATABASE_URL").isSome

------------------------------------------------------------
-- What Is Public
------------------------------------------------------------

section Public

variable {newUrl : String → Option Url}
variable {a b : Server} {table : ConfigTable}

/- The keys of the catalogue that can be configured are public. -/
theorem public_of_allowed
    {key : String}
    (hAllowed : key ∈ allowedConfigKeys) :
    ∃ d ∈ envVarDefs, d.key = key ∧ d.key ∉ secretKeys := by
  have hAll :
      ∀ key ∈ allowedConfigKeys,
        key ∈ envVarDefs.map EnvVarDef.key ∧ key ∉ secretKeys := by
    decide
  rcases hAll key hAllowed with ⟨hKnown, hPublic⟩
  rcases List.mem_map.mp hKnown with ⟨d, hMem, rfl⟩
  exact ⟨d, hMem, rfl, hPublic⟩

theorem SamePublic.env_eq
    {key : String}
    (hSamePublic : SamePublic a b)
    (hAllowed : key ∈ allowedConfigKeys) :
    a.env key = b.env key := by
  rcases public_of_allowed hAllowed with ⟨d, hMem, rfl, hPublic⟩
  exact hSamePublic d hMem hPublic

theorem SamePublic.rpcUrl_eq
    (hSamePublic : SamePublic a b) :
    a.rpcUrl table = b.rpcUrl table := by
  have hOne : "SOLANA_RPC_URL" ∈ allowedConfigKeys := by decide
  have hMany : "SOLANA_RPC_URLS" ∈ allowedConfigKeys := by decide
  rw [Server.rpcUrl, Server.rpcUrl, hSamePublic.env_eq hOne,
    hSamePublic.env_eq hMany]

theorem SamePublic.getConfig_eq
    (hSamePublic : SamePublic a b) :
    getConfig a.env table = getConfig b.env table := by
  unfold getConfig
  apply List.filterMap_congr
  intro key hAllowed
  rw [displayed, displayed, hSamePublic.env_eq hAllowed]

/- Of a secret nothing is told but whether it is there. -/
theorem envVarStatus_secret
    {d : EnvVarDef}
    (hSecret : d.key ∈ secretKeys) :
    a.envVarStatus table d =
      { key := d.key
        required := d.required
        description := d.description
        setIn := d.setIn
        set := (truthyVar a.env d.key).isSome
        source :=
          if (truthyVar a.env d.key).isSome then some "env" else none
        masked :=
          if (truthyVar a.env d.key).isSome then Js.utf16 "****"
          else [] } := by
  have hOnly : ∀ key ∈ secretKeys, key ∉ allowedConfigKeys := by
    decide
  unfold Server.envVarStatus
  rw [if_neg (hOnly d.key hSecret)]
  dsimp only
  rw [if_pos hSecret, Option.none_or]
  rfl

/- The wallet tells whether there is a private key. -/
theorem isSome_key_iff :
    (truthyVar a.env "WALLET_PRIVATE_KEY").isSome ↔
      (deriveWalletPubkey a.env a.files).source =
        some "WALLET_PRIVATE_KEY" := by
  unfold deriveWalletPubkey
  cases truthyVar a.env "WALLET_PRIVATE_KEY" with
  | some rawKey => simp
  | none =>
    cases truthyVar a.env "KEYPAIR_PATH" with
    | some path => simp
    | none => simp

theorem isSome_source :
    (deriveWalletPubkey a.env a.files).source.isSome =
      ((truthyVar a.env "WALLET_PRIVATE_KEY").isSome ||
        (truthyVar a.env "KEYPAIR_PATH").isSome) := by
  unfold deriveWalletPubkey
  cases truthyVar a.env "WALLET_PRIVATE_KEY" with
  | some rawKey => rfl
  | none =>
    cases truthyVar a.env "KEYPAIR_PATH" with
    | some path => rfl
    | none => rfl

theorem isSome_key_eq
    (hWallet :
      deriveWalletPubkey a.env a.files =
        deriveWalletPubkey b.env b.files) :
    (truthyVar a.env "WALLET_PRIVATE_KEY").isSome =
      (truthyVar b.env "WALLET_PRIVATE_KEY").isSome := by
  rw [Bool.eq_iff_iff, isSome_key_iff, isSome_key_iff, hWallet]

theorem SamePublic.envVarStatus_eq
    {d : EnvVarDef}
    (hSamePublic : SamePublic a b)
    (hWallet :
      deriveWalletPubkey a.env a.files =
        deriveWalletPubkey b.env b.files)
    (hDatabase : a.hasDatabase = b.hasDatabase)
    (hMem : d ∈ envVarDefs) :
    a.envVarStatus table d = b.envVarStatus table d := by
  by_cases hSecret : d.key ∈ secretKeys
  · have hSome :
        (truthyVar a.env d.key).isSome =
          (truthyVar b.env d.key).isSome := by
      rcases List.mem_cons.mp hSecret with hKey | hRest
      · rw [hKey]
        exact isSome_key_eq hWallet
      · rw [List.mem_singleton.mp hRest]
        exact hDatabase
    rw [envVarStatus_secret hSecret, envVarStatus_secret hSecret, hSome]
  · unfold Server.envVarStatus
    rw [hSamePublic d hMem hSecret]

theorem SamePublic.settingsStatus_eq
    {ping : String → Option ℕ}
    (hSamePublic : SamePublic a b)
    (hWallet :
      deriveWalletPubkey a.env a.files =
        deriveWalletPubkey b.env b.files)
    (hDatabase : a.hasDatabase = b.hasDatabase) :
    a.settingsStatus table ping = b.settingsStatus table ping := by
  unfold Server.settingsStatus
  have hVars :
      envVarDefs.map (a.envVarStatus table) =
        envVarDefs.map (b.envVarStatus table) :=
    List.map_congr_left fun d hMem =>
      hSamePublic.envVarStatus_eq hWallet hDatabase hMem
  rw [← isSome_source, ← isSome_source, hWallet,
    hSamePublic.rpcUrl_eq, hVars]

theorem SamePublic.handle_eq
    (hSamePublic : SamePublic a b)
    (hWallet :
      deriveWalletPubkey a.env a.files =
        deriveWalletPubkey b.env b.files)
    (hDatabase : a.hasDatabase = b.hasDatabase)
    (request : SettingsRequest) :
    a.handle newUrl table request = b.handle newUrl table request := by
  cases request with
  | status dbAnswers ping =>
    dsimp only [Server.handle]
    rw [hSamePublic.settingsStatus_eq hWallet hDatabase,
      hSamePublic.rpcUrl_eq]
  | config dbAnswers =>
    dsimp only [Server.handle]
    rw [hSamePublic.getConfig_eq]
  | put request => rfl
  | testRpc fetched body => rfl

/-
  Requests tell of the wallet what is derived of it, and of the
  database whether there is one, and that is all.
-/
theorem indistinguishable_iff_wallet
    (hSamePublic : SamePublic a b) :
    Indistinguishable newUrl a b ↔
      deriveWalletPubkey a.env a.files =
          deriveWalletPubkey b.env b.files ∧
        a.hasDatabase = b.hasDatabase := by
  constructor
  · intro hSame
    have hOne :=
      hSame (fun _ => none) [.status true fun _ => none]
    have hFirst := congrArg Observation.response (List.cons.inj hOne).1
    have hStatus :
        a.settingsStatus (fun _ => none) (fun _ => none) =
          b.settingsStatus (fun _ => none) fun _ => none :=
      SettingsResponse.status.inj hFirst
    constructor
    · have hWallet := congrArg SettingsStatus.wallet hStatus
      have hPubkey := congrArg WalletInfo.pubkey hWallet
      have hSource := congrArg WalletInfo.source hWallet
      cases hA : deriveWalletPubkey a.env a.files with
      | mk pubkey source =>
        cases hB : deriveWalletPubkey b.env b.files with
        | mk pubkey' source' =>
          dsimp only [Server.settingsStatus] at hPubkey hSource
          rw [hA, hB] at hPubkey hSource
          dsimp only at hPubkey hSource
          rw [hPubkey, hSource]
    · have hVars := congrArg SettingsStatus.envVars hStatus
      dsimp only [Server.settingsStatus] at hVars
      have hEach := List.map_inj_left.mp hVars
      have hDatabase :
          ∃ d ∈ envVarDefs, d.key = "DATABASE_URL" := by
        decide
      rcases hDatabase with ⟨d, hMem, hKey⟩
      have hSecret : d.key ∈ secretKeys := by
        rw [hKey]
        decide
      have hSet := congrArg EnvVarStatus.set (hEach d hMem)
      rw [envVarStatus_secret hSecret, envVarStatus_secret hSecret,
        hKey] at hSet
      exact hSet
  · rintro ⟨hWallet, hDatabase⟩ table requests
    induction requests generalizing table with
    | nil => rfl
    | cons request requests ih =>
      have hHandle : a.handle newUrl table request =
          b.handle newUrl table request :=
        hSamePublic.handle_eq hWallet hDatabase request
      rw [Server.transcript, Server.transcript, hHandle, ih]

end Public

------------------------------------------------------------
-- The Halves of a Key
------------------------------------------------------------

section Halves

variable {server : Server} {bytes bytes' : List UInt8}

theorem HoldsKey.derive_eq
    (hHolds : HoldsKey server bytes) :
    deriveWalletPubkey server.env server.files =
      { pubkey := some (base58Encode (bytes.drop 32))
        source := some "WALLET_PRIVATE_KEY" } := by
  rcases Option.bind_eq_some_iff.mp hHolds.key with
    ⟨rawKey, hVar, hRead⟩
  have hHalf : (bytes.drop 32).take 32 = bytes.drop 32 := by
    apply List.take_of_length_le
    rw [List.length_drop, hHolds.length]
  rw [deriveWalletPubkey, hVar]
  dsimp only
  rw [hRead, Option.bind_some, pubkeyFromKeypairBytes,
    if_neg (not_not.mpr hHolds.length), hHalf]

theorem HoldsKey.half_ne_nil
    (hHolds : HoldsKey server bytes) :
    bytes.drop 32 ≠ [] := by
  intro hNone
  have hLength := congrArg List.length hNone
  rw [List.length_drop, hHolds.length] at hLength
  cases hLength

/- The text of a public half is that of no other. -/
theorem base58Encode_inj
    (hNe : bytes ≠ [])
    (hNe' : bytes' ≠ [])
    (hSame : base58Encode bytes = base58Encode bytes') :
    bytes = bytes' := by
  have hBack := base58Decode_encode hNe
  rw [hSame, base58Decode_encode hNe'] at hBack
  exact (Except.ok.inj hBack).symm

/-
  Whatever is asked of them, servers with a private key can be
  told apart only by its public half, and by whether they have a
  database.
-/
theorem indistinguishable_iff
    (newUrl : String → Option Url)
    (a b : Server)
    (hSamePublic : SamePublic a b)
    (hA : HoldsKey a bytes)
    (hB : HoldsKey b bytes') :
    Indistinguishable newUrl a b ↔
      bytes.drop 32 = bytes'.drop 32 ∧ a.hasDatabase = b.hasDatabase := by
  rw [indistinguishable_iff_wallet hSamePublic, hA.derive_eq, hB.derive_eq]
  constructor
  · rintro ⟨hWallet, hDatabase⟩
    refine ⟨?_, hDatabase⟩
    have hText := congrArg WalletPubkey.pubkey hWallet
    exact base58Encode_inj hA.half_ne_nil hB.half_ne_nil
      (Option.some.inj hText)
  · rintro ⟨hHalf, hDatabase⟩
    exact ⟨by rw [hHalf], hDatabase⟩

end Halves

/- A server that has a key of that first byte, and nothing else. -/
def keyServer (first : Char) : Server where
  env := keyEnv (arrayKey [first])
  files := fun _ => none

theorem holdsKey_keyServer
    {first : Char}
    {bytes : List UInt8}
    (hRead : parseUint8Array (arrayKey [first]) = some bytes)
    (hLength : bytes.length = 64) :
    HoldsKey (keyServer first) bytes := by
  refine ⟨?_, hLength⟩
  have hVar :
      truthyVar (keyServer first).env "WALLET_PRIVATE_KEY" =
        some (arrayKey [first]) := by
    have hNe := arrayKey_ne_empty [first]
    simp [truthyVar, keyServer, keyEnv, hNe]
  rw [hVar, Option.bind_some, (arrayKey_trimmed [first]).1,
    keyBytes_bracketed (arrayKey_bracketed [first])]
  exact hRead

/- Two keys of one public half. -/
theorem indistinguishable_keyServer :
    Indistinguishable (fun _ => none) (keyServer '1')
      (keyServer '2') := by
  have hSamePublic : SamePublic (keyServer '1') (keyServer '2') := by
    intro d _ hPublic
    have hKey : d.key ≠ "WALLET_PRIVATE_KEY" := by
      intro hSame
      rw [hSame] at hPublic
      exact hPublic List.mem_cons_self
    simp [keyServer, keyEnv, hKey]
  have hOne :
      parseUint8Array (arrayKey ['1']) =
        some (1 :: List.replicate 63 0) := by
    rw [parseUint8Array, parse_arrayKey]
    decide +kernel
  have hTwo :
      parseUint8Array (arrayKey ['2']) =
        some (2 :: List.replicate 63 0) := by
    rw [parseUint8Array, parse_arrayKey]
    decide +kernel
  have hIff :=
    indistinguishable_iff (fun _ => none) (keyServer '1')
      (keyServer '2') hSamePublic (holdsKey_keyServer hOne (by simp))
      (holdsKey_keyServer hTwo (by simp))
  exact hIff.mpr ⟨rfl, rfl⟩

end Pumpy
