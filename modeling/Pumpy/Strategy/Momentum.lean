import Mathlib.Algebra.Order.Field.Rat
import Mathlib.Logic.Function.Basic
import Pumpy.Strategy.Signals

/-
  The momentum strategy (python-strategy/strategies/momentum.py):
  what it makes of the signals of its generator.

  Key definitions include:
    * `shouldEnter`
    * `calculateMomentumScore`
    * `analyze`
    * `Agrees`

  The main results are `agrees_iff`: a signal to sell is traded
  as its confidence says, unless it comes from the rules; and
  `analyze_rules_sell`: a signal to sell from the rules is never
  traded.
-/

------------------------------------------------------------
-- The Strategy
------------------------------------------------------------

namespace Pumpy

namespace Momentum

open Signals

structure Settings (α : Type) where
  momentumEnabled : Bool
  momentumVolumeThreshold : α
  momentumPriceChangeThreshold : α
  momentumSlippageBps : ℤ

structure TokenMarketData (α : Type) where
  mint : String
  price : α
  liquiditySol : α
  marketCapSol : α
  volume24hSol : α
  holderCount : ℤ
  bondingCurveProgress : α
  priceHistory : List α
  volumeHistory : List α

structure TradeSignal (α : Type) where
  tokenMint : String
  side : String
  amountSol : α
  reason : String
  confidence : α
  strategyName : String
  slippageBps : ℤ
  metadata : List (String × String)
  timestamp : α

/- The windows and the times of the last signals are by mint. -/
structure MomentumStrategy (α : Type) where
  mlGenerator : MLSignalGenerator α
  priceWindows : String → List α
  volumeWindows : String → List α
  lastSignalTime : String → Option α
  cooldownSeconds : α
  buyAmountSol : α

/-
  The clock, as `analyze` reads it: on entering, when the
  cut-offs are passed, and once more for the signal.
-/
structure Readings (α : Type) where
  entered : α
  decided : α
  signalled : α

section Model

variable {α : Type} [Field α] [LinearOrder α]

/- A literal of the source: `0.55` is `decimal 55 2`. -/
def decimal (digits places : ℕ) : α :=
  (digits : α) / (10 ^ places : ℕ)

/- `should_enter(token)`. -/
def shouldEnter
    (settings : Settings α)
    (now : α)
    (st : MomentumStrategy α)
    (token : TokenMarketData α) : Bool :=
  if settings.momentumEnabled = false then
    false
  else if token.liquiditySol < decimal 20 1 then
    false
  else if token.marketCapSol < decimal 50 1 then
    false
  else if decimal 90 0 < token.bondingCurveProgress then
    false
  else
    match st.lastSignalTime token.mint with
    | some lastSignal => !decide (now - lastSignal < st.cooldownSeconds)
    | none => true

/- `append`, to a deque of at most a hundred. -/
def push (window : List α) (v : α) : List α :=
  lastN (window ++ [v]) 100

/- `update_price_data(mint, price, volume)`. -/
def MomentumStrategy.updatePriceData
    (st : MomentumStrategy α)
    (mint : String)
    (price volume : α) : MomentumStrategy α :=
  { st with
    priceWindows :=
      Function.update st.priceWindows mint
        (push (st.priceWindows mint) price)
    volumeWindows :=
      Function.update st.volumeWindows mint
        (push (st.volumeWindows mint) volume) }

/- `l or d`. -/
def listOr (l d : List α) : List α :=
  if l = [] then d else l

/- `calculate_momentum_score(prices, volumes)`. -/
def calculateMomentumScore
    (np : Numpy α)
    (prices volumes : List α) : α :=
  if prices.length < 5 then
    0
  else
    let vols :=
      if volumes = [] then List.replicate prices.length 1
      else volumes
    let shortMa := mean (lastN prices 5)
    let longMa :=
      if 20 ≤ prices.length then mean (lastN prices 20)
      else mean prices
    let priceMomentum := shortMa / (longMa + epsilon) - 1
    let recentVol := mean (lastN vols 5)
    let avgVol := mean vols
    let volMomentum := recentVol / (avgVol + epsilon) - 1
    let diffs := (prices.zip prices.tail).map fun p => p.2 - p.1
    let positiveFrac :=
      (diffs.countP (0 < ·) : α) / (max diffs.length 1 : ℕ)
    let score :=
      decimal 4 1 * np.tanh (priceMomentum * decimal 10 0) +
        decimal 3 1 * np.tanh volMomentum +
        decimal 3 1 * (positiveFrac - decimal 5 1) * decimal 2 0
    max 0 (min 1 ((score + 1) / decimal 20 1))

/- What a token is analysed on, once its price is recorded. -/
def prices
    (st : MomentumStrategy α)
    (token : TokenMarketData α) : List α :=
  listOr (st.priceWindows token.mint) token.priceHistory

def volumes
    (st : MomentumStrategy α)
    (token : TokenMarketData α) : List α :=
  listOr (st.volumeWindows token.mint) token.volumeHistory

/- What the generator is asked about. -/
def signalInput
    (st : MomentumStrategy α)
    (token : TokenMarketData α) : SignalInput α where
  tokenMint := token.mint
  price := token.price
  priceHistory := prices st token
  volumeHistory := volumes st token
  liquiditySol := token.liquiditySol
  marketCapSol := token.marketCapSol
  bondingCurveProgress := token.bondingCurveProgress
  holderCount := token.holderCount

/- The change of the last price. -/
def priceChange (prices : List α) : α :=
  match prices.reverse with
  | last :: before :: _ => (last - before) / (before + epsilon)
  | _ => 0

def combinedScore (mlScore momentumScore : α) : α :=
  decimal 6 1 * mlScore + decimal 4 1 * momentumScore

/- The second half of `analyze`: the cut-offs and the trade. -/
def decideTrade
    (text : PyText α)
    (settings : Settings α)
    (clock : Readings α)
    (st : MomentumStrategy α)
    (token : TokenMarketData α)
    (signal : Signal α)
    (momentumScore : α) :
    MomentumStrategy α × Option (TradeSignal α) :=
  let combined := combinedScore signal.mlScore momentumScore
  let change := priceChange (prices st token)
  if (¬(settings.momentumVolumeThreshold < token.volume24hSol ∨
      settings.momentumPriceChangeThreshold < change)) ∧
      combined < decimal 7 1 then
    (st, none)
  else if combined < decimal 55 2 then
    (st, none)
  else
    let st :=
      { st with
        lastSignalTime :=
          Function.update st.lastSignalTime token.mint
            (some clock.decided) }
    if signal.direction = .hold then
      (st, none)
    else
      (st, some
        { tokenMint := token.mint
          side := if signal.direction = .buy then "BUY" else "SELL"
          amountSol := st.buyAmountSol
          reason :=
            s!"Momentum: score={text.fixed 2 combined} " ++
            s!"price_chg={text.fixed 1 (change * decimal 100 0)}% " ++
            s!"vol={text.fixed 1 token.volume24hSol} SOL"
          confidence := combined
          strategyName := "momentum"
          slippageBps := settings.momentumSlippageBps
          metadata :=
            [("strategy", "momentum"),
              ("momentum_score", text.str momentumScore),
              ("ml_score", text.str signal.mlScore),
              ("price_change", text.str change)]
          timestamp := clock.signalled })

/- The strategy with the price of the token recorded. -/
def recorded
    (st : MomentumStrategy α)
    (token : TokenMarketData α) : MomentumStrategy α :=
  st.updatePriceData token.mint token.price token.volume24hSol

/- `analyze(token)`, with any momentum score. -/
def analyze
    (np : Numpy α)
    (text : PyText α)
    (settings : Settings α)
    (momentumScore : List α → List α → α)
    (clock : Readings α)
    (st : MomentumStrategy α)
    (token : TokenMarketData α) :
    MomentumStrategy α × Option (TradeSignal α) :=
  if shouldEnter settings clock.entered st token then
    let st := recorded st token
    let signal :=
      generateSignal np text st.mlGenerator (signalInput st token)
    decideTrade text settings clock st token signal
      (momentumScore (prices st token) (volumes st token))
  else
    (st, none)

------------------------------------------------------------
-- Signals to Sell
------------------------------------------------------------

section Sells

variable (np : Numpy α) (text : PyText α) (settings : Settings α)
variable (momentumScore : List α → List α → α) (clock : Readings α)
variable (st : MomentumStrategy α) (token : TokenMarketData α)

/- The signal and the momentum score of an analysed token. -/
def signalOf : Signal α :=
  generateSignal np text st.mlGenerator
    (signalInput (recorded st token) token)

def scoreOf : α :=
  momentumScore (prices (recorded st token) token)
    (volumes (recorded st token) token)

omit [LinearOrder α] in
theorem combinedScore_eq (mlScore momentumScore : α) :
    combinedScore mlScore momentumScore =
      6 / 10 * mlScore + 4 / 10 * momentumScore := by
  norm_num [combinedScore, decimal]

theorem analyze_eq
    (hEnter : shouldEnter settings clock.entered st token) :
    analyze np text settings momentumScore clock st token =
      decideTrade text settings clock (recorded st token) token
        (signalOf np text st token)
        (scoreOf momentumScore st token) :=
  if_pos hEnter

/- A combined score below 0.55 passes no cut-off. -/
theorem decideTrade_low
    {signal : Signal α}
    {score : α}
    (hLow : combinedScore signal.mlScore score < 55 / 100) :
    decideTrade text settings clock st token signal score =
      (st, none) := by
  have hCut : (decimal 55 2 : α) = 55 / 100 := by
    norm_num [decimal]
  unfold decideTrade
  dsimp only
  rw [hCut, if_pos hLow, ite_self]

variable [IsStrictOrderedRing α]

/- A combined score of 0.7 passes both cut-offs. -/
theorem decideTrade_sell
    {signal : Signal α}
    {score : α}
    (hSell : signal.direction = .sell)
    (hHigh : 7 / 10 ≤ combinedScore signal.mlScore score) :
    ∃ t,
      (decideTrade text settings clock st token signal score).2 = some t ∧
        t.side = "SELL" := by
  have hFirst : ¬combinedScore signal.mlScore score < decimal 7 1 := by
    rw [not_lt]
    exact le_trans (by norm_num [decimal]) hHigh
  have hSecond :
      ¬combinedScore signal.mlScore score < decimal 55 2 := by
    rw [not_lt]
    exact le_trans (by norm_num [decimal]) hHigh
  unfold decideTrade
  dsimp only
  rw [if_neg fun hBoth => hFirst hBoth.2, if_neg hSecond, hSell]
  exact ⟨_, rfl, rfl⟩

/-
  What is meant by the score of a signal: it is the confidence
  in the direction of the signal, and so every signal to sell is
  traded if its confidence and the momentum are high enough.
-/
structure Agrees
    (np : Numpy α)
    (text : PyText α)
    (gen : MLSignalGenerator α)
    (x : SignalInput α) : Prop where
  scored : (generateSignal np text gen x).Scored
  traded :
    ∀ settings momentumScore clock st token,
      st.mlGenerator = gen →
      signalInput (recorded st token) token = x →
      shouldEnter settings clock.entered st token →
      (generateSignal np text gen x).direction = .sell →
      7 / 10 ≤
        6 / 10 * (generateSignal np text gen x).confidence +
          4 / 10 * scoreOf momentumScore st token →
      ∃ t,
        (analyze np text settings momentumScore clock st token).2 =
            some t ∧
          t.side = "SELL"

/- The score alone decides it. -/
theorem agrees_of_scored
    {gen : MLSignalGenerator α}
    {x : SignalInput α}
    (hScored : (generateSignal np text gen x).Scored) :
    Agrees np text gen x := by
  refine ⟨hScored, ?_⟩
  rintro settings momentumScore clock st token rfl rfl hEnter hSell hHigh
  have hSame := hScored (by rw [hSell]; nofun)
  rw [analyze_eq np text settings momentumScore clock st token hEnter]
  apply decideTrade_sell text settings clock _ token hSell
  rw [combinedScore_eq, hSame]
  exact hHigh

/-
  So it is, exactly if a model gives the signal, or the rules
  have five points.
-/
theorem agrees_iff (gen : MLSignalGenerator α) (x : SignalInput α) :
    Agrees np text gen x ↔
      ¬(ByRules np gen x ∧ rulePoints np x < 5) := by
  rw [← scored_generateSignal_iff np text gen x]
  exact ⟨Agrees.scored, agrees_of_scored np text⟩

theorem calculateMomentumScore_le_one (prices volumes : List α) :
    calculateMomentumScore np prices volumes ≤ 1 := by
  unfold calculateMomentumScore
  dsimp only
  split
  · exact zero_le_one
  · exact max_le zero_le_one (min_le_left _ _)

/- A signal to sell from the rules is never traded. -/
theorem analyze_rules_sell
    (hRules :
      ByRules np st.mlGenerator
        (signalInput (recorded st token) token))
    (hFew : rulePoints np (signalInput (recorded st token) token) < 5) :
    (analyze np text settings (calculateMomentumScore np) clock st
      token).2 = none := by
  by_cases hEnter : shouldEnter settings clock.entered st token
  · have hScore :
        (signalOf np text st token).mlScore < 25 / 100 := by
      unfold signalOf
      rcases generateSignal_eq np text st.mlGenerator
        (signalInput (recorded st token) token) with
        ⟨_, hSignal⟩ | ⟨hModel, _⟩
      · rw [hSignal]
        exact mlScore_ruleBasedSignal_lt np text _ hFew
      · exact absurd hRules hModel
    have hMomentum :
        scoreOf (calculateMomentumScore np) st token ≤ 1 :=
      calculateMomentumScore_le_one np _ _
    rw [analyze_eq np text settings _ clock st token hEnter,
      decideTrade_low]
    rw [combinedScore_eq]
    linarith
  · unfold analyze
    rw [if_neg hEnter]

end Sells

end Model

/- numpy for equal prices: near zero, `tanh` is the identity. -/
def nearZero : Numpy ℚ where
  std := fun _ => 0
  tanh := id

def plainText : PyText ℚ where
  fixed := fun _ x => toString x
  str := toString

/- No model has been trained. -/
def untrained : MLSignalGenerator ℚ :=
  ⟨none⟩

/- A strategy that has seen four equal prices. -/
def steady : MomentumStrategy ℚ where
  mlGenerator := untrained
  priceWindows := fun _ => [1, 1, 1, 1]
  volumeWindows := fun _ => [1, 1, 1, 1]
  lastSignalTime := fun _ => none
  cooldownSeconds := 60
  buyAmountSol := 1 / 10

/- The lowest liquidity and market cap that may be entered. -/
def thinToken : TokenMarketData ℚ :=
  ⟨"thin", 1, 2, 5, 1, 10, 5, [], []⟩

def defaultSettings : Settings ℚ :=
  ⟨true, 10, 1 / 20, 300⟩

theorem agrees_iff_thin :
    Agrees nearZero plainText untrained
        (signalInput (recorded steady thinToken) thinToken) ↔
      ¬(ByRules nearZero untrained
          (signalInput (recorded steady thinToken) thinToken) ∧
        rulePoints nearZero
          (signalInput (recorded steady thinToken) thinToken) < 5) :=
  agrees_iff nearZero plainText untrained _

/- The rules are sure to sell, and nothing is traded. -/
theorem not_agrees_thin :
    shouldEnter defaultSettings 0 steady thinToken = true ∧
      (signalOf nearZero plainText steady thinToken).direction = .sell ∧
      (signalOf nearZero plainText steady thinToken).confidence = 1 ∧
      (signalOf nearZero plainText steady thinToken).mlScore = 0 ∧
      7 / 10 ≤
        6 / 10 * (signalOf nearZero plainText steady thinToken).confidence +
          4 / 10 * scoreOf (calculateMomentumScore nearZero) steady
            thinToken ∧
      (analyze nearZero plainText defaultSettings
          (calculateMomentumScore nearZero) ⟨0, 0, 0⟩ steady
          thinToken).2 =
        none ∧
      ¬Agrees nearZero plainText untrained
        (signalInput (recorded steady thinToken) thinToken) := by
  refine ⟨by decide +kernel, by decide +kernel, by decide +kernel,
    by decide +kernel, by decide +kernel, ?_, ?_⟩
  · have hRules :
        ByRules nearZero steady.mlGenerator
          (signalInput (recorded steady thinToken) thinToken) :=
      nofun
    exact analyze_rules_sell nearZero plainText defaultSettings
      ⟨0, 0, 0⟩ steady thinToken hRules (by decide +kernel)
  · intro hAgrees
    have hSame :
        (signalOf nearZero plainText steady thinToken).mlScore =
          (signalOf nearZero plainText steady thinToken).confidence :=
      hAgrees.scored (by decide +kernel)
    revert hSame
    decide +kernel

end Momentum

end Pumpy
