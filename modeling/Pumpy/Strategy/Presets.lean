import Mathlib.Algebra.Order.Ring.Rat
import Mathlib.Algebra.Order.Field.Rat
import Pumpy.Interleaving.Transition
import Pumpy.Strategy.Backtest

/-
  The settings of the strategies and who writes them: the
  endpoints (python-strategy/api/routes.py) and the refresh of
  the preset in the scan loop (strategy_engine.py).

  Key definitions include:
    * `StrategyEngine`
    * `StrategyEngine.step`
    * `sets`
    * `KeepsUpdates`
    * `RefreshAgrees`

  The main result is `keepsUpdates_iff`: the amounts that
  operators set stay until a refresh reads a preset, changed or
  not, that has another amount.
-/

------------------------------------------------------------
-- Strategies and Presets
------------------------------------------------------------

namespace Pumpy

namespace Presets

open Interleaving
open Backtest (HTTPException)

section Model

variable {α : Type}

/- The settings of a strategy that may be written, if it has them. -/
structure Strategy (α : Type) where
  name : String
  enabled : Bool
  buyAmountSol : Option α
  slippageBps : Option ℤ
  takeProfitPct : Option α
  stopLossPct : Option α
  trailingStopPct : Option α
  minLiquiditySol : Option α

structure StrategyConfigUpdate (α : Type) where
  strategyName : String
  enabled : Option Bool
  buyAmountSol : Option α
  slippageBps : Option ℤ
  takeProfitPct : Option α
  stopLossPct : Option α
  trailingStopPct : Option α
  minLiquiditySol : Option α

/- The parameters of a preset, as they are written in the source. -/
structure PresetParams where
  buyAmountSol : ℚ
  stopLossPct : ℚ
  takeProfitPct : ℚ
  maxPositions : ℕ

/- `PRESET_PARAMS` of the engine. -/
def presetParams : List (String × PresetParams) :=
  [ ("conservative", ⟨5 / 100, 5, 20, 2⟩),
    ("balanced", ⟨15 / 100, 10, 50, 5⟩),
    ("aggressive", ⟨5 / 10, 20, 100, 10⟩) ]

/- `PRESETS` of the endpoints, with `risk_per_trade_sol` first. -/
def presets : List (String × PresetParams) :=
  [ ("conservative", ⟨5 / 100, 5, 20, 2⟩),
    ("balanced", ⟨15 / 100, 10, 50, 5⟩),
    ("aggressive", ⟨5 / 10, 20, 100, 10⟩) ]

/- `PRESET_REFRESH_CYCLES`. -/
def presetRefreshCycles : ℕ := 12

/- Sets an attribute, if it is there. -/
def setAttr {β : Type} (attr : Option β) (v : β) : Option β :=
  attr.map fun _ => v

/- Sets an attribute to a value of an update, if both are there. -/
def updateAttr {β : Type} (attr v : Option β) : Option β :=
  match v with
  | some v => setAttr attr v
  | none => attr

/- What `PATCH /strategies/{name}` does to its strategy. -/
def Strategy.update
    (s : Strategy α)
    (u : StrategyConfigUpdate α) : Strategy α where
  name := s.name
  enabled := u.enabled.getD s.enabled
  buyAmountSol := updateAttr s.buyAmountSol u.buyAmountSol
  slippageBps := updateAttr s.slippageBps u.slippageBps
  takeProfitPct := updateAttr s.takeProfitPct u.takeProfitPct
  stopLossPct := updateAttr s.stopLossPct u.stopLossPct
  trailingStopPct := updateAttr s.trailingStopPct u.trailingStopPct
  minLiquiditySol := updateAttr s.minLiquiditySol u.minLiquiditySol

/- What `POST /strategy/config` does to its strategy. -/
def Strategy.updateConfig
    (s : Strategy α)
    (u : StrategyConfigUpdate α) : Strategy α :=
  { s with
    enabled := u.enabled.getD s.enabled
    buyAmountSol := updateAttr s.buyAmountSol u.buyAmountSol }

/- What a preset does to every strategy; `lit` reads a literal. -/
def Strategy.applyParams
    (lit : ℚ → α)
    (params : PresetParams)
    (s : Strategy α) : Strategy α :=
  { s with
    buyAmountSol := setAttr s.buyAmountSol (lit params.buyAmountSol)
    stopLossPct := setAttr s.stopLossPct (lit params.stopLossPct)
    takeProfitPct := setAttr s.takeProfitPct (lit params.takeProfitPct) }

------------------------------------------------------------
-- The Engine
------------------------------------------------------------

/- What the Express API says about the config of a wallet. -/
inductive ConfigAnswer where
  | found (camel snake : Option String)
  | notFound
  | failed
deriving DecidableEq, Repr

/- A preset that is being written to a wallet's config. -/
structure PresetPut where
  preset : String
  walletId : String
  -- the status, once the API has handled the request
  status : Option ℕ
  -- the endpoint still waits for it
  waiting : Bool
deriving DecidableEq, Repr

/- Where the scan loop is, with the answer to its request. -/
inductive ScanLoop where
  | starting (answer : Option ConfigAnswer)
  | sleeping
  | refreshing (answer : Option ConfigAnswer)
deriving DecidableEq, Repr

structure StrategyEngine (α : Type) where
  strategies : List (Strategy α)
  activePreset : String
  scanCycle : ℕ
  walletId : String
  adminApiKey : String
  scan : ScanLoop
  puts : List PresetPut
  -- the presets in the table of wallet configs
  stored : String → Option String

/- A new engine: `start` asks for the preset first. -/
def StrategyEngine.new
    (strategies : List (Strategy α))
    (adminApiKey : String)
    (stored : String → Option String) : StrategyEngine α where
  strategies := strategies
  activePreset := "balanced"
  scanCycle := 0
  walletId := "wallet_001"
  adminApiKey := adminApiKey
  scan := .starting none
  puts := []
  stored := stored

/- Requests are served once `start` has returned. -/
def StrategyEngine.Serves (s : StrategyEngine α) : Prop :=
  ∀ answer, s.scan ≠ .starting answer

instance (s : StrategyEngine α) : Decidable s.Serves :=
  match h : s.scan with
  | .starting answer => .isFalse fun hServes => hServes answer h
  | .sleeping => .isTrue fun _ => by rw [h]; nofun
  | .refreshing _ => .isTrue fun _ => by rw [h]; nofun

/- `x or d` for texts. -/
def textOr (x : Option String) (d : String) : String :=
  match x with
  | some t => if t = "" then d else t
  | none => d

/- `_apply_preset(preset)`. -/
def StrategyEngine.applyPreset
    (lit : ℚ → α)
    (s : StrategyEngine α)
    (preset : String) : StrategyEngine α :=
  match presetParams.lookup preset with
  | none => s
  | some params =>
      { s with
        activePreset := preset
        strategies := s.strategies.map (Strategy.applyParams lit params) }

/- The preset that an answer names, if it names one. -/
def ConfigAnswer.preset : ConfigAnswer → Option String
  | .found camel snake => some (textOr camel (textOr snake "balanced"))
  | .notFound => some "balanced"
  | .failed => none

/- The rest of `_refresh_preset_from_wallet_config`. -/
def StrategyEngine.applyAnswer
    (lit : ℚ → α)
    (s : StrategyEngine α)
    (answer : ConfigAnswer) : StrategyEngine α :=
  match answer.preset with
  | some preset => s.applyPreset lit preset
  | none => s

------------------------------------------------------------
-- Endpoints
------------------------------------------------------------

def notFoundDetail (name : String) : HTTPException :=
  ⟨404, s!"Strategy '{name}' not found"⟩

/- The first strategy of a name is changed. -/
def StrategyEngine.modifyNamed
    (s : StrategyEngine α)
    (name : String)
    (f : Strategy α → Strategy α) :
    Except HTTPException (StrategyEngine α) :=
  match s.strategies.findIdx? (·.name = name) with
  | some i => .ok { s with strategies := s.strategies.modify i f }
  | none => .error (notFoundDetail name)

/- `PATCH /strategies/{strategy_name}`. -/
def StrategyEngine.updateStrategy
    (s : StrategyEngine α)
    (strategyName : String)
    (u : StrategyConfigUpdate α) :
    Except HTTPException (StrategyEngine α) :=
  s.modifyNamed strategyName (·.update u)

/- `POST /strategy/config`. -/
def StrategyEngine.updateStrategyConfig
    (s : StrategyEngine α)
    (u : StrategyConfigUpdate α) :
    Except HTTPException (StrategyEngine α) :=
  s.modifyNamed u.strategyName (·.updateConfig u)

/- `PUT /strategy/preset`, up to its request to the Express API. -/
def StrategyEngine.setStrategyPreset
    (s : StrategyEngine α)
    (preset walletId : String)
    (adminKey : Option String) :
    Except HTTPException (StrategyEngine α) :=
  if s.adminApiKey = "" ∨ adminKey ≠ some s.adminApiKey then
    .error ⟨401, "Admin key required"⟩
  else if (presets.lookup preset).isNone then
    .error
      ⟨400, "preset must be one of: " ++
        String.intercalate ", " (presets.map Prod.fst)⟩
  else
    .ok { s with puts := s.puts ++ [⟨preset, walletId, none, true⟩] }

/- The rest of the endpoint, once there is a status. -/
def StrategyEngine.finishPreset
    (lit : ℚ → α)
    (s : StrategyEngine α)
    (put : PresetPut)
    (status : ℕ)
    (text : String) : Except HTTPException (StrategyEngine α) :=
  if status ∉ [200, 201, 204] then
    .error
      ⟨502, "Failed to persist preset to wallet_config (status " ++
        toString status ++ "): " ++ (text.take 200).toString⟩
  else
    match presets.lookup put.preset with
    | some params =>
        .ok { s with
          strategies := s.strategies.map (Strategy.applyParams lit params) }
    | none => .ok s

------------------------------------------------------------
-- The System
------------------------------------------------------------

inductive Event (α : Type) where
  | patchStrategy (name : String) (update : StrategyConfigUpdate α)
  | postConfig (update : StrategyConfigUpdate α)
  | putPreset (preset walletId : String) (adminKey : Option String)
  -- the Express API handles request `i`; its statement may fail
  | expressPut (i : ℕ) (ok : Bool)
  | putAnswered (i : ℕ) (text : String)
  -- the endpoint gives request `i` up
  | putLost (i : ℕ)
  | tick
  -- the Express API answers the scan loop; its statement may fail
  | expressGet (ok : Bool)
  | refreshed
  | refreshLost
  -- anybody else writes the config of a wallet
  | store (walletId preset : String)

/- The table of configs after an update of one that is there. -/
def storePreset
    (stored : String → Option String)
    (walletId preset : String) : String → Option String :=
  fun w =>
    if w = walletId then (stored w).map fun _ => preset
    else stored w

/- A refused request changes nothing. -/
def orSame
    (s : StrategyEngine α)
    (r : Except HTTPException (StrategyEngine α)) : StrategyEngine α :=
  match r with
  | .ok s' => s'
  | .error _ => s

/- The status of the Express API, for a config that may be missing. -/
def putStatus (stored : Option String) (ok : Bool) : ℕ :=
  if ok = false then 500
  else if stored.isNone then 404
  else 200

/- What the Express API answers about a wallet. -/
def getAnswer (stored : Option String) (ok : Bool) : ConfigAnswer :=
  if ok = false then .failed
  else
    match stored with
    | some preset => .found (some preset) none
    | none => .notFound

def StrategyEngine.step
    (lit : ℚ → α)
    (s : StrategyEngine α) : Event α → Option (StrategyEngine α)
  | .patchStrategy name update =>
      if s.Serves then
        some (orSame s (s.updateStrategy name update))
      else
        none
  | .postConfig update =>
      if s.Serves then
        some (orSame s (s.updateStrategyConfig update))
      else
        none
  | .putPreset preset walletId adminKey =>
      if s.Serves then
        some (orSame s (s.setStrategyPreset preset walletId adminKey))
      else
        none
  | .expressPut i ok =>
      match s.puts[i]? with
      | some put =>
          if put.status = none then
            some
              { s with
                stored :=
                  if ok then
                    storePreset s.stored put.walletId put.preset
                  else
                    s.stored
                puts :=
                  s.puts.set i
                    { put with
                      status :=
                        some (putStatus (s.stored put.walletId) ok) } }
          else
            none
      | none => none
  | .putAnswered i text =>
      match s.puts[i]? with
      | some put =>
          match put.status with
          | some status =>
              if put.waiting then
                some
                  { orSame s (s.finishPreset lit put status text) with
                    puts := s.puts.set i { put with waiting := false } }
              else
                none
          | none => none
      | none => none
  | .putLost i =>
      match s.puts[i]? with
      | some put =>
          some
            { s with puts := s.puts.set i { put with waiting := false } }
      | none => none
  | .tick =>
      if s.scan = .sleeping then
        some
          { s with
            scanCycle := s.scanCycle + 1
            scan :=
              if (s.scanCycle + 1) % presetRefreshCycles = 0 then
                .refreshing none
              else
                .sleeping }
      else
        none
  | .expressGet ok =>
      match s.scan with
      | .starting none =>
          some { s with
            scan := .starting (some (getAnswer (s.stored s.walletId) ok)) }
      | .refreshing none =>
          some { s with
            scan := .refreshing (some (getAnswer (s.stored s.walletId) ok)) }
      | _ => none
  | .refreshed =>
      match s.scan with
      | .starting (some answer) =>
          some { s.applyAnswer lit answer with scan := .sleeping }
      | .refreshing (some answer) =>
          some { s.applyAnswer lit answer with scan := .sleeping }
      | _ => none
  | .refreshLost =>
      match s.scan with
      | .sleeping => none
      | _ => some { s with scan := .sleeping }
  | .store walletId preset =>
      some { s with
        stored := fun w => if w = walletId then some preset else s.stored w }

def system (lit : ℚ → α) : Transition (Event α) (StrategyEngine α) where
  step := StrategyEngine.step lit

------------------------------------------------------------
-- What Writes an Amount
------------------------------------------------------------

section Writes

variable {lit : ℚ → α} {s s' : StrategyEngine α} {e : Event α}
variable {i : ℕ}

/- The amount of strategy number `i`, if it has one. -/
def buyAt (s : StrategyEngine α) (i : ℕ) : Option α :=
  s.strategies[i]?.bind Strategy.buyAmountSol

/- The parameters of the preset that a successful `PUT` applies. -/
def putParams (s : StrategyEngine α) (k : ℕ) : Option PresetParams :=
  match s.puts[k]? with
  | some put =>
      if put.waiting ∧ put.status ∈ [some 200, some 201, some 204] then
        presets.lookup put.preset
      else
        none
  | none => none

/- The amount that a successful update gives to strategy `i`. -/
def sets
    (lit : ℚ → α)
    (s : StrategyEngine α)
    (e : Event α)
    (i : ℕ) : Option α :=
  match e with
  | .patchStrategy name update =>
      if s.strategies.findIdx? (·.name = name) = some i then
        (buyAt s i).bind fun _ => update.buyAmountSol
      else
        none
  | .postConfig update =>
      if s.strategies.findIdx? (·.name = update.strategyName) = some i then
        (buyAt s i).bind fun _ => update.buyAmountSol
      else
        none
  | .putAnswered k _ =>
      (buyAt s i).bind fun _ =>
        (putParams s k).map fun params => lit params.buyAmountSol
  | _ => none

/- The parameters that a refresh writes, if the preset is known. -/
def refreshSets
    (s : StrategyEngine α)
    (e : Event α) : Option PresetParams :=
  match e, s.scan with
  | .refreshed, .starting (some answer) =>
      answer.preset.bind fun preset => presetParams.lookup preset
  | .refreshed, .refreshing (some answer) =>
      answer.preset.bind fun preset => presetParams.lookup preset
  | _, _ => none

theorem updateAttr_eq {β : Type} (attr v : Option β) :
    updateAttr attr v = (attr.bind fun _ => v).or attr := by
  cases attr with
  | none => cases v <;> rfl
  | some a => cases v <;> rfl

theorem buyAt_applyParams (params : PresetParams) :
    buyAt { s with
        strategies := s.strategies.map (Strategy.applyParams lit params) } i =
      setAttr (buyAt s i) (lit params.buyAmountSol) := by
  unfold buyAt
  rw [List.getElem?_map]
  cases s.strategies[i]? <;> rfl

theorem buyAt_applyAnswer (answer : ConfigAnswer) :
    buyAt (s.applyAnswer lit answer) i =
      match
        answer.preset.bind fun preset => presetParams.lookup preset
      with
      | some params => setAttr (buyAt s i) (lit params.buyAmountSol)
      | none => buyAt s i := by
  unfold StrategyEngine.applyAnswer StrategyEngine.applyPreset
  cases answer.preset with
  | none => rfl
  | some preset =>
      rw [Option.bind_some]
      dsimp only
      cases presetParams.lookup preset with
      | none => rfl
      | some params => exact buyAt_applyParams params

/- Where one strategy is changed, its amount may change. -/
theorem buyAt_modifyNamed
    {name : String}
    {f : Strategy α → Strategy α}
    {v : Option α}
    (hAttr :
      ∀ t, (f t).buyAmountSol = updateAttr t.buyAmountSol v) :
    buyAt (orSame s (s.modifyNamed name f)) i =
      (if s.strategies.findIdx? (·.name = name) = some i then
        (buyAt s i).bind fun _ => v
      else
        none).or (buyAt s i) := by
  unfold StrategyEngine.modifyNamed
  cases s.strategies.findIdx? (·.name = name) with
  | none => rfl
  | some j =>
      unfold orSame buyAt
      dsimp only
      rw [List.getElem?_modify]
      by_cases hSame : j = i
      · subst hSame
        rw [if_pos rfl]
        cases s.strategies[j]? with
        | none => rfl
        | some t =>
            simp only [if_true, Option.map_eq_map, Option.map_some,
              Option.bind_some, hAttr, updateAttr_eq]
      · rw [if_neg fun h => hSame (Option.some.inj h)]
        cases s.strategies[i]? <;> simp [hSame]

theorem buyAt_setStrategyPreset
    (preset walletId : String)
    (adminKey : Option String) :
    buyAt (orSame s (s.setStrategyPreset preset walletId adminKey)) i =
      buyAt s i := by
  unfold StrategyEngine.setStrategyPreset
  split_ifs <;> rfl

theorem buyAt_finishPreset
    {k : ℕ}
    {put : PresetPut}
    {status : ℕ}
    (text : String)
    (hPut : s.puts[k]? = some put)
    (hStatus : put.status = some status)
    (hWaiting : put.waiting) :
    buyAt (orSame s (s.finishPreset lit put status text)) i =
      ((buyAt s i).bind fun _ =>
        (putParams s k).map fun params =>
          lit params.buyAmountSol).or (buyAt s i) := by
  have hParams :
      putParams s k =
        if status ∈ [200, 201, 204] then presets.lookup put.preset
        else none := by
    unfold putParams
    rw [hPut]
    simp [hStatus, hWaiting]
  unfold StrategyEngine.finishPreset
  rw [hParams]
  by_cases hOk : status ∈ [200, 201, 204]
  · rw [if_neg (not_not.mpr hOk), if_pos hOk]
    cases presets.lookup put.preset with
    | none =>
        cases hBuy : buyAt s i <;> simp [orSame, hBuy]
    | some params =>
        unfold orSame
        dsimp only
        rw [buyAt_applyParams]
        cases buyAt s i <;> rfl
  · rw [if_pos hOk, if_neg hOk]
    cases hBuy : buyAt s i <;> simp [orSame, hBuy]

/-
  An amount changes where an update sets it, and where a refresh
  knows the preset that it reads.
-/
theorem buyAt_step
    (hStep : s.step lit e = some s') :
    buyAt s' i =
      match refreshSets s e with
      | some params => setAttr (buyAt s i) (lit params.buyAmountSol)
      | none => (sets lit s e i).or (buyAt s i) := by
  cases e with
  | patchStrategy name update =>
      dsimp only [StrategyEngine.step] at hStep
      split at hStep
      · cases hStep
        exact buyAt_modifyNamed fun _ => rfl
      · cases hStep
  | postConfig update =>
      dsimp only [StrategyEngine.step] at hStep
      split at hStep
      · cases hStep
        exact buyAt_modifyNamed fun _ => rfl
      · cases hStep
  | putPreset preset walletId adminKey =>
      dsimp only [StrategyEngine.step] at hStep
      split at hStep
      · cases hStep
        exact buyAt_setStrategyPreset preset walletId adminKey
      · cases hStep
  | putAnswered k text =>
      dsimp only [StrategyEngine.step] at hStep
      split at hStep
      · next put hPut =>
          split at hStep
          · next status hStatus =>
              split at hStep
              · next hWaiting =>
                  cases hStep
                  exact buyAt_finishPreset text hPut hStatus hWaiting
              · cases hStep
          · cases hStep
      · cases hStep
  | refreshed =>
      dsimp only [StrategyEngine.step] at hStep
      unfold refreshSets
      split at hStep
      · next answer hScan =>
          cases hStep
          rw [hScan]
          exact buyAt_applyAnswer answer
      · next answer hScan =>
          cases hStep
          rw [hScan]
          exact buyAt_applyAnswer answer
      · cases hStep
  | expressPut k ok =>
      dsimp only [StrategyEngine.step] at hStep
      split at hStep
      · split at hStep
        · cases hStep
          rfl
        · cases hStep
      · cases hStep
  | putLost k =>
      dsimp only [StrategyEngine.step] at hStep
      split at hStep
      · cases hStep
        rfl
      · cases hStep
  | tick =>
      dsimp only [StrategyEngine.step] at hStep
      split at hStep
      · cases hStep
        rfl
      · cases hStep
  | expressGet ok =>
      dsimp only [StrategyEngine.step] at hStep
      split at hStep
      · cases hStep
        rfl
      · cases hStep
        rfl
      · cases hStep
  | refreshLost =>
      dsimp only [StrategyEngine.step] at hStep
      split at hStep
      · cases hStep
      · cases hStep
        rfl
  | store walletId preset =>
      cases hStep
      rfl

end Writes

------------------------------------------------------------
-- Updates that Stay
------------------------------------------------------------

section Updates

variable {lit : ℚ → α}

/- The amount of the last successful update, by strategy. -/
abbrev LastSet (α : Type) :=
  ℕ → Option α

/- The system, and the amounts that updates have set. -/
def watched (lit : ℚ → α) :
    Transition (Event α) (StrategyEngine α × LastSet α) :=
  (system lit).watch fun s e last i => (sets lit s e i).or (last i)

/- Every amount that an update has set is as it was set. -/
def KeepsUpdates (p : StrategyEngine α × LastSet α) : Prop :=
  ∀ i v, p.2 i = some v → buyAt p.1 i = some v

/-
  A refresh that knows the preset it reads finds no strategy that
  an update has given another amount.
-/
def RefreshAgrees
    (lit : ℚ → α)
    (p : StrategyEngine α × LastSet α)
    (e : Event α) : Prop :=
  ∀ params,
    refreshSets p.1 e = some params →
      ∀ i v, p.2 i = some v → v = lit params.buyAmountSol

theorem refreshSets_eq_none
    {s : StrategyEngine α}
    {e : Event α}
    (hNone : s.step lit e = none) :
    refreshSets s e = none := by
  unfold refreshSets
  split
  · next hScan =>
      simp only [StrategyEngine.step, hScan, reduceCtorEq] at hNone
  · next hScan =>
      simp only [StrategyEngine.step, hScan, reduceCtorEq] at hNone
  · rfl

/- A refresh is no update. -/
theorem sets_of_refreshSets
    {s : StrategyEngine α}
    {e : Event α}
    {params : PresetParams}
    (hRefresh : refreshSets s e = some params)
    (i : ℕ) :
    sets lit s e i = none := by
  unfold refreshSets at hRefresh
  split at hRefresh
  · rfl
  · rfl
  · cases hRefresh

theorem keepsUpdates_step
    {p q : StrategyEngine α × LastSet α}
    {e : Event α}
    (hKeeps : KeepsUpdates p)
    (hStep : (watched lit).step p e = some q) :
    KeepsUpdates q ↔ RefreshAgrees lit p e := by
  rcases Transition.watch_step.mp hStep with ⟨hEngine, hNote⟩
  have hBuy := fun i => buyAt_step (i := i) hEngine
  unfold KeepsUpdates RefreshAgrees
  rw [← hNote]
  cases hRefresh : refreshSets p.1 e with
  | none =>
      refine iff_of_true (fun i v hLast => ?_) nofun
      rw [hBuy i, hRefresh]
      dsimp only at hLast ⊢
      cases hSets : sets lit p.1 e i with
      | none =>
          rw [hSets, Option.none_or] at hLast
          exact hKeeps i v hLast
      | some w =>
          rw [hSets, Option.some_or] at hLast
          exact hLast
  | some params =>
      have hSame :
          ∀ i v,
            p.2 i = some v →
              (buyAt q.1 i = some v ↔ v = lit params.buyAmountSol) := by
        intro i v hLast
        rw [hBuy i, hRefresh, hKeeps i v hLast]
        simp only [setAttr, Option.map_some, Option.some.injEq]
        exact eq_comm
      have hNoSet : ∀ i, sets lit p.1 e i = none :=
        sets_of_refreshSets hRefresh
      simp only [hNoSet, Option.none_or, Option.some.injEq,
        forall_eq']
      exact forall₂_congr fun i v =>
        forall_congr' fun hLast => hSame i v hLast

/-
  The amounts stay as updates set them throughout a run exactly
  if every refresh that knows its preset agrees with them.
-/
theorem keepsUpdates_iff
    (s : StrategyEngine α)
    (es : List (Event α)) :
    (watched lit).Throughout KeepsUpdates (s, fun _ => none) es ↔
      (watched lit).Meets (RefreshAgrees lit) (s, fun _ => none) es := by
  apply Transition.throughout_iff_meets
  · exact fun _ _ hNone => nomatch hNone
  · intro p e hNone params hRefresh
    rw [refreshSets_eq_none (Transition.watch_step_none.mp hNone)] at hRefresh
    cases hRefresh
  · exact fun p e q hKeeps hStep => keepsUpdates_step hKeeps hStep

end Updates

end Model

/- The two strategies, and a wallet with a balanced preset. -/
def freshEngine : StrategyEngine ℚ :=
  .new
    [ ⟨"sniper", true, some (5 / 100), none, none, none, none, some 1⟩,
      ⟨"momentum", true, some (1 / 10), none, none, none, none, none⟩ ]
    "key"
    fun w => if w = "wallet_001" then some "balanced" else none

/- The sniper is to buy for 0.3 SOL. -/
def largerAmount : StrategyConfigUpdate ℚ :=
  ⟨"sniper", none, some (3 / 10), none, none, none, none, none⟩

/- The start, an update, and the scans up to the next refresh. -/
def overwriteRun : List (Event ℚ) :=
  [.expressGet true, .refreshed, .patchStrategy "sniper" largerAmount] ++
    List.replicate 12 .tick ++ [.expressGet true, .refreshed]

/- The preset has not changed, and the refresh undoes the update. -/
theorem not_keepsUpdates_overwriteRun :
    (system id).Throughout
        (fun s => s.stored "wallet_001" = some "balanced")
        freshEngine overwriteRun ∧
      ((system id).exec freshEngine overwriteRun).map (buyAt · 0) =
        some (some (15 / 100)) ∧
      ¬(watched id).Throughout KeepsUpdates (freshEngine, fun _ => none)
        overwriteRun := by
  refine ⟨?_, by decide +kernel, ?_⟩
  · apply Transition.throughout_of_checkStates
    decide +kernel
  · intro hKeeps
    rcases Transition.exists_exec_of_any (watched id)
      (freshEngine, fun _ => none) overwriteRun
      (fun q =>
        decide
          (q.2 0 = some (3 / 10) ∧ buyAt q.1 0 = some (15 / 100)))
      (by decide +kernel) with ⟨q, hExec, hLast⟩
    rcases of_decide_eq_true hLast with ⟨hSet, hBuy⟩
    have hSame :=
      hKeeps overwriteRun [] q (List.append_nil _).symm hExec 0 _ hSet
    rw [hBuy] at hSame
    revert hSame
    decide +kernel

end Presets

end Pumpy
