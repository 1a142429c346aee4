import Mathlib.Algebra.Order.Ring.Rat
import Mathlib.Algebra.Order.Field.Rat
import Mathlib.Data.List.Basic

/-
  The backtest (`run_backtest`, python-strategy/api/routes.py) and
  the metrics of a series of trades (`_compute_advanced_metrics`,
  strategy_engine.py), over any kind of number.

  Key definitions include:
    * `shouldEnter`
    * `trades`
    * `runBacktest`
    * `computeAdvancedMetrics`

  The main result is `trades_prefix`: a trade depends on no price
  after its exit bar.
-/

------------------------------------------------------------
-- Numbers
------------------------------------------------------------

namespace Pumpy

namespace Backtest

/- What Python's operators do on a kind of number. -/
class PyFloat (α : Type) extends Zero α, One α, Add α, Sub α, Mul α,
    Div α, Neg α, NatCast α, Pow α ℕ, LT α, LE α where
  decEq : DecidableEq α
  decLT : DecidableLT α
  decLE : DecidableLE α

instance {α : Type} [PyFloat α] : DecidableEq α := PyFloat.decEq

instance instDecidableLTOfPyFloat {α : Type} [PyFloat α] :
    DecidableLT α :=
  PyFloat.decLT

instance instDecidableLEOfPyFloat {α : Type} [PyFloat α] :
    DecidableLE α :=
  PyFloat.decLE

/- Exact arithmetic. -/
instance : PyFloat ℚ where
  decEq := inferInstance
  decLT := inferInstance
  decLE := inferInstance

/- The functions of Python's library that the backtest calls. -/
structure PyMath (α : Type) where
  sum : List α → α
  sqrt : α → α
  round : α → ℕ → α

section Model

variable {α : Type} [PyFloat α]

/- `max(a, b)`. -/
def pyMax (a b : α) : α :=
  if a < b then b else a

/- `min(a, b)`. -/
def pyMin (a b : α) : α :=
  if b < a then b else a

------------------------------------------------------------
-- Metrics
------------------------------------------------------------

structure AdvancedMetrics (α : Type) where
  sharpeRatio : α
  maxDrawdownPct : α
  volatility : α

/- The variables of the drawdown loop. -/
structure DrawdownState (α : Type) where
  equity : α
  peak : α
  maxDdPct : α

/- The start of the loop: an equity of one. -/
def drawdownStart : DrawdownState α where
  equity := 1
  peak := 1
  maxDdPct := 0

/- One turn of the loop. -/
def drawdownTurn (st : DrawdownState α) (p : α) : DrawdownState α :=
  let equity := st.equity + p
  let peak := if st.peak < equity then equity else st.peak
  if 0 < peak then
    let ddPct := (peak - equity) / peak * (100 : ℕ)
    ⟨equity, peak, if st.maxDdPct < ddPct then ddPct else st.maxDdPct⟩
  else
    ⟨equity, peak, st.maxDdPct⟩

/- `_compute_advanced_metrics(pnl_series)`. -/
def computeAdvancedMetrics
    (math : PyMath α)
    (pnlSeries : List α) : AdvancedMetrics α :=
  if pnlSeries.length < 2 then
    ⟨0, 0, 0⟩
  else
    let n := pnlSeries.length
    let mean := math.sum pnlSeries / n
    let variance :=
      math.sum (pnlSeries.map fun x => (x - mean) ^ 2) /
        ((n - 1 : ℕ) : α)
    let std :=
      if 0 < variance then math.sqrt variance
      else (1 : α) / (1000000000 : ℕ)
    let annualization := math.sqrt ((288 * 365 : ℕ) : α)
    let sharpe := mean / std * annualization
    let last := pnlSeries.foldl drawdownTurn drawdownStart
    { sharpeRatio := math.round sharpe 4
      maxDrawdownPct := math.round last.maxDdPct 4
      volatility := math.round std 6 }

------------------------------------------------------------
-- Requests and Price Series
------------------------------------------------------------

structure BacktestRequest (α : Type) where
  strategyName : String
  tokenMints : Option (List String)
  days : ℤ
  initialSol : α
  buyAmountSol : Option α
  stopLossPct : Option α
  takeProfitPct : Option α
  minLiquiditySol : Option α

/- What a backtest reads of a live strategy, which may lack it. -/
structure LiveStrategy (α : Type) where
  name : String
  buyAmountSol : Option α
  stopLossPct : Option α
  takeProfitPct : Option α
  minLiquiditySol : Option α

/- What it reads of a tracked token. -/
structure TrackedToken (α : Type) where
  priceHistory : List α
  liquiditySol : α
  bondingCurveProgress : α

/- The engine: its strategies, and its tokens by mint. -/
structure Engine (α : Type) where
  strategies : List (LiveStrategy α)
  trackedTokens : List (String × TrackedToken α)

/- A row of `/api/token-metrics`. -/
structure TokenMetricsRow (α : Type) where
  mint : Option String
  price : Option α
  liquiditySol : Option α
  bondingCurveProgress : Option α

/- The isolated configuration. -/
structure Config (α : Type) where
  buyAmountSol : α
  stopLossPct : Option α
  takeProfitPct : Option α
  minLiquiditySol : α

structure Meta (α : Type) where
  liquiditySol : α
  bondingCurveProgress : α

/- The price series and what is known of their tokens, by mint. -/
structure Series (α : Type) where
  prices : List (String × List α)
  metadata : List (String × Meta α)

def config
    (body : BacktestRequest α)
    (strategy : LiveStrategy α) : Config α where
  buyAmountSol :=
    (body.buyAmountSol.or strategy.buyAmountSol).getD
      ((1 : α) / (10 : ℕ))
  stopLossPct := body.stopLossPct.or strategy.stopLossPct
  takeProfitPct := body.takeProfitPct.or strategy.takeProfitPct
  minLiquiditySol :=
    (body.minLiquiditySol.or strategy.minLiquiditySol).getD 0

/- `series[mint].append(price)`, in a dictionary of lists. -/
def appendPrice
    (mint : String)
    (price : α) : List (String × List α) → List (String × List α)
  | [] => [(mint, [price])]
  | (m, prices) :: rest =>
      if m = mint then
        (m, prices ++ [price]) :: rest
      else
        (m, prices) :: appendPrice mint price rest

/- `x or d`, where a missing number and zero count as nothing. -/
def orElse (x : Option α) (d : α) : α :=
  match x with
  | some v => if v = 0 then d else v
  | none => d

/- A row adds its price if it has a mint and a price above zero. -/
def addRow (s : Series α) (row : TokenMetricsRow α) : Series α :=
  match row.mint, row.price with
  | some mint, some price =>
      if mint ≠ "" ∧ 0 < price then
        { prices := appendPrice mint price s.prices
          metadata :=
            if (s.metadata.lookup mint).isSome then
              s.metadata
            else
              s.metadata ++
                [(mint,
                  { liquiditySol := orElse row.liquiditySol 0
                    bondingCurveProgress :=
                      orElse row.bondingCurveProgress (50 : ℕ) })] }
      else
        s
  | _, _ => s

/- The tokens in memory stand in for rows that are not there. -/
def addToken (s : Series α) (t : String × TrackedToken α) : Series α :=
  if 4 ≤ t.2.priceHistory.length then
    { prices := s.prices ++ [(t.1, t.2.priceHistory)]
      metadata :=
        s.metadata ++
          [(t.1, ⟨t.2.liquiditySol, t.2.bondingCurveProgress⟩)] }
  else
    s

/-
  The series a request is replayed on.  The rows, if they could
  be fetched, come newest first.
-/
def priceSeries
    (engine : Engine α)
    (rows : Option (List (TokenMetricsRow α)))
    (body : BacktestRequest α) : Series α :=
  let fetched := (rows.getD []).reverse.foldl addRow ⟨[], []⟩
  let found :=
    if fetched.prices = [] then
      (engine.trackedTokens.take 10).foldl addToken fetched
    else
      fetched
  match body.tokenMints with
  | some (mint :: mints) =>
      { found with
        prices := found.prices.filter fun p => p.1 ∈ mint :: mints }
  | _ => found

------------------------------------------------------------
-- Signals
------------------------------------------------------------

/- `history[max(0, i - n):i]`. -/
def lookback (history : List α) (n i : ℕ) : List α :=
  (history.take i).drop (i - n)

/- `history[i]`, inside the series. -/
def bar (history : List α) (i : ℕ) : α :=
  history.getD i 0

/- `len(l) >= 2 and l[-1] > l[0]`. -/
def rises (l : List α) : Bool :=
  match l.head?, l.getLast? with
  | some first, some last => decide (2 ≤ l.length) && decide (first < last)
  | _, _ => false

/- `_should_enter(mint, history, i)`. -/
def shouldEnter
    (math : PyMath α)
    (strategyName : String)
    (cfg : Config α)
    (known : Option (Meta α))
    (history : List α)
    (i : ℕ) : Bool :=
  let liq := (known.map Meta.liquiditySol).getD 0
  let bc := (known.map Meta.bondingCurveProgress).getD (50 : ℕ)
  if bar history (i - 1) ≤ 0 then
    false
  else if liq < cfg.minLiquiditySol then
    false
  else if strategyName = "sniper" then
    if ((30 : ℕ) : α) < bc then
      false
    else
      rises (lookback history 3 i)
  else if strategyName = "momentum" then
    let short := lookback history 5 i
    let long := lookback history 20 i
    if short.length < 2 then
      false
    else
      decide (math.sum long / long.length < math.sum short / short.length)
  else
    rises (lookback history 5 i)

------------------------------------------------------------
-- The Replay
------------------------------------------------------------

/- `return_pct`, between the stop and the target. -/
def returnPct (cfg : Config α) (entryPrice exitPrice : α) : α :=
  let raw := (exitPrice - entryPrice) / entryPrice
  let stopped :=
    match cfg.stopLossPct with
    | some pct => pyMax raw (-pct / (100 : ℕ))
    | none => raw
  match cfg.takeProfitPct with
  | some pct => pyMin stopped (pct / (100 : ℕ))
  | none => stopped

/- The pnl of the bar `i`, if it is traded. -/
def tradeAt
    (math : PyMath α)
    (strategyName : String)
    (cfg : Config α)
    (known : Option (Meta α))
    (history : List α)
    (i : ℕ) : Option α :=
  if shouldEnter math strategyName cfg known history i then
    let entryPrice := bar history (i - 1)
    let exitPrice := bar history i
    if entryPrice ≤ 0 then
      none
    else
      some (cfg.buyAmountSol * returnPct cfg entryPrice exitPrice)
  else
    none

/- The variables of the replay. -/
structure Replay (α : Type) where
  sol : α
  equityCurve : List α
  pnlSeries : List α
  wins : ℕ
  trades : ℕ

def Replay.new (initialSol : α) : Replay α :=
  ⟨initialSol, [initialSol], [], 0, 0⟩

/- A trade is booked. -/
def Replay.book (math : PyMath α) (r : Replay α) (pnl : α) : Replay α where
  sol := r.sol + pnl
  equityCurve := r.equityCurve ++ [math.round (r.sol + pnl) 6]
  pnlSeries := r.pnlSeries ++ [pnl]
  wins := if 0 < pnl then r.wins + 1 else r.wins
  trades := r.trades + 1

/- The bars of a series that the replay looks at. -/
def bars (history : List α) : List ℕ :=
  if history.length < 4 then
    []
  else
    List.range' 1 (history.length - 1)

/- The series of one token is replayed. -/
def replayToken
    (math : PyMath α)
    (strategyName : String)
    (cfg : Config α)
    (metadata : List (String × Meta α))
    (r : Replay α)
    (token : String × List α) : Replay α :=
  (bars token.2).foldl
    (fun r i =>
      match
        tradeAt math strategyName cfg (metadata.lookup token.1) token.2 i
      with
      | some pnl => r.book math pnl
      | none => r)
    r

def replay
    (math : PyMath α)
    (body : BacktestRequest α)
    (cfg : Config α)
    (series : Series α) : Replay α :=
  series.prices.foldl
    (replayToken math body.strategyName cfg series.metadata)
    (.new body.initialSol)

------------------------------------------------------------
-- The Result
------------------------------------------------------------

structure BacktestResult (α : Type) where
  strategy : String
  days : ℤ
  initialSol : α
  finalSol : α
  simulatedPnlSol : α
  totalReturnPct : α
  totalTrades : ℕ
  wins : ℕ
  winRate : α
  sharpeRatio : α
  maxDrawdownPct : α
  volatility : α
  equityCurve : List α
  dataSource : String

structure HTTPException where
  statusCode : ℕ
  detail : String
deriving DecidableEq, Repr

/- The endpoint, given what could be fetched of the rows. -/
def runBacktest
    (math : PyMath α)
    (engine : Engine α)
    (rows : Option (List (TokenMetricsRow α)))
    (body : BacktestRequest α) :
    Except HTTPException (BacktestResult α) :=
  match engine.strategies.find? (·.name = body.strategyName) with
  | none =>
      .error ⟨404, s!"Strategy '{body.strategyName}' not found"⟩
  | some strategy =>
      let series := priceSeries engine rows body
      let r := replay math body (config body strategy) series
      let winRate : α :=
        if 0 < r.trades then (r.wins : α) / r.trades * (100 : ℕ) else 0
      let totalReturnPct : α :=
        (r.sol - body.initialSol) / body.initialSol * (100 : ℕ)
      let advanced := computeAdvancedMetrics math r.pnlSeries
      .ok
        { strategy := body.strategyName
          days := body.days
          initialSol := body.initialSol
          finalSol := math.round r.sol 6
          simulatedPnlSol := math.round (r.sol - body.initialSol) 6
          totalReturnPct := math.round totalReturnPct 4
          totalTrades := r.trades
          wins := r.wins
          winRate := math.round winRate 2
          sharpeRatio := advanced.sharpeRatio
          maxDrawdownPct := advanced.maxDrawdownPct
          volatility := advanced.volatility
          equityCurve := r.equityCurve.drop (r.equityCurve.length - 200)
          dataSource :=
            if series.prices.any fun p =>
                (series.metadata.lookup p.1).isSome then
              "db"
            else
              "in_memory" }

------------------------------------------------------------
-- No Look-Ahead
------------------------------------------------------------

section Causal

variable (math : PyMath α) (strategyName : String) (cfg : Config α)
variable (known : Option (Meta α))

/- The simulated trades of one series: entry index and pnl. -/
def trades (history : List α) : List (ℕ × α) :=
  (bars history).filterMap fun i =>
    (tradeAt math strategyName cfg known history i).map fun pnl =>
      (i, pnl)

theorem bar_append
    {p : List α} {i : ℕ}
    (rest : List α)
    (hIn : i < p.length) :
    bar (p ++ rest) i = bar p i := by
  unfold bar
  rw [List.getD_eq_getElem?_getD, List.getD_eq_getElem?_getD,
    List.getElem?_append_left hIn]

omit [PyFloat α] in
theorem lookback_append
    {p : List α} {i : ℕ}
    (rest : List α)
    (n : ℕ)
    (hIn : i < p.length) :
    lookback (p ++ rest) n i = lookback p n i := by
  unfold lookback
  rw [List.take_append_of_le_length hIn.le]

/- An entry is decided on the bars before it. -/
theorem shouldEnter_append
    {p : List α} {i : ℕ}
    (rest : List α)
    (hIn : i < p.length) :
    shouldEnter math strategyName cfg known (p ++ rest) i =
      shouldEnter math strategyName cfg known p i := by
  have hBefore : i - 1 < p.length := (Nat.sub_le i 1).trans_lt hIn
  unfold shouldEnter
  rw [bar_append rest hBefore]
  simp only [lookback_append rest _ hIn]

/- A trade depends on no bar after its exit. -/
theorem tradeAt_append
    {p : List α} {i : ℕ}
    (rest : List α)
    (hIn : i < p.length) :
    tradeAt math strategyName cfg known (p ++ rest) i =
      tradeAt math strategyName cfg known p i := by
  have hBefore : i - 1 < p.length := (Nat.sub_le i 1).trans_lt hIn
  unfold tradeAt
  rw [shouldEnter_append math strategyName cfg known rest hIn,
    bar_append rest hBefore, bar_append rest hIn]

omit [PyFloat α] in
theorem lt_of_mem_bars
    {history : List α} {i : ℕ}
    (hMem : i ∈ bars history) :
    1 ≤ i ∧ i < history.length := by
  unfold bars at hMem
  split at hMem
  · cases hMem
  · have hRange := List.mem_range'_1.mp hMem
    omega

/- The bars of a prefix come first. -/
omit [PyFloat α] in
theorem bars_append
    (p rest : List α)
    (hLong : 4 ≤ p.length) :
    bars (p ++ rest) =
      bars p ++ List.range' p.length rest.length := by
  have hLonger : ¬(p ++ rest).length < 4 := by
    rw [List.length_append]
    omega
  have hCount :
      (p ++ rest).length - 1 = (p.length - 1) + rest.length := by
    rw [List.length_append]
    omega
  have hNext : 1 + (p.length - 1) = p.length := by omega
  unfold bars
  rw [if_neg hLonger, if_neg (by omega), hCount, ← List.range'_append_1,
    hNext]

/-
  Whatever the numbers, the trades on a prefix of a series are a
  prefix of the trades on the series.
-/
theorem trades_prefix (p rest : List α) :
    trades math strategyName cfg known p <+:
      trades math strategyName cfg known (p ++ rest) := by
  by_cases hShort : p.length < 4
  · have hNone : bars p = [] := if_pos hShort
    unfold trades
    rw [hNone]
    exact List.nil_prefix
  · have hSame :
        ∀ i ∈ bars p,
          tradeAt math strategyName cfg known (p ++ rest) i =
            tradeAt math strategyName cfg known p i :=
      fun i hMem =>
        tradeAt_append math strategyName cfg known rest
          (lt_of_mem_bars hMem).2
    unfold trades
    rw [bars_append p rest (not_lt.mp hShort), List.filterMap_append,
      List.filterMap_congr fun i hMem =>
        congrArg (Option.map fun pnl => (i, pnl)) (hSame i hMem)]
    exact List.prefix_append _ _

end Causal

------------------------------------------------------------
-- What the Replay Books
------------------------------------------------------------

section Books

variable (math : PyMath α) (strategyName : String) (cfg : Config α)
variable (metadata : List (String × Meta α))

/- The replay of a series books its trades, in order. -/
theorem replayToken_eq (r : Replay α) (token : String × List α) :
    replayToken math strategyName cfg metadata r token =
      ((trades math strategyName cfg (metadata.lookup token.1)
          token.2).map Prod.snd).foldl (Replay.book math) r := by
  unfold replayToken trades
  rw [List.map_filterMap, List.foldl_filterMap]
  congr 1
  funext r i
  cases tradeAt math strategyName cfg (metadata.lookup token.1)
    token.2 i <;> rfl

/- The pnl of every trade of every series, in order. -/
def pnls (series : Series α) : List α :=
  series.prices.flatMap fun token =>
    (trades math strategyName cfg (series.metadata.lookup token.1)
      token.2).map Prod.snd

theorem replay_eq
    (body : BacktestRequest α)
    (series : Series α) :
    replay math body cfg series =
      (pnls math body.strategyName cfg series).foldl
        (Replay.book math) (.new body.initialSol) := by
  unfold replay pnls
  rw [List.foldl_flatMap]
  congr 1
  funext r token
  exact replayToken_eq math body.strategyName cfg series.metadata r
    token

theorem pnlSeries_book (r : Replay α) (gains : List α) :
    (gains.foldl (Replay.book math) r).pnlSeries =
      r.pnlSeries ++ gains := by
  induction gains generalizing r with
  | nil => exact (List.append_nil _).symm
  | cons g gains ih =>
      rw [List.foldl_cons, ih]
      simp [Replay.book]

theorem pnlSeries_replay
    (body : BacktestRequest α)
    (series : Series α) :
    (replay math body cfg series).pnlSeries =
      pnls math body.strategyName cfg series := by
  rw [replay_eq, pnlSeries_book]
  rfl

end Books

end Model

end Backtest

end Pumpy
