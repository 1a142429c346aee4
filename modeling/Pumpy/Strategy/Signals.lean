import Mathlib.Algebra.Order.Field.Basic
import Mathlib.Data.Int.Cast.Lemmas
import Mathlib.Tactic.Linarith
import Mathlib.Tactic.Ring

/-
  The signal generator (python-strategy/ml/signal_generator.py):
  features of a token, signals of a trained model, and the rules
  that stand in for it.

  Key definitions include:
    * `extractFeatures`
    * `mlSignal`
    * `ruleBasedSignal`
    * `generateSignal`
    * `rulePoints`

  The main results are `score_rules`: the rules add up points;
  and `scored_generateSignal_iff`: the score of a signal to trade
  is its confidence, unless the rules say to sell.
-/

------------------------------------------------------------
-- Signals
------------------------------------------------------------

namespace Pumpy

namespace Signals

inductive SignalDirection where
  | buy
  | sell
  | hold
deriving DecidableEq, Repr

structure Signal (α : Type) where
  direction : SignalDirection
  confidence : α
  reason : String
  tokenMint : String
  price : α
  marketCapSol : α
  liquiditySol : α
  bondingCurveProgress : α
  volumeScore : α
  momentumScore : α
  mlScore : α

/- The functions of numpy that are not arithmetic. -/
structure Numpy (α : Type) where
  std : List α → α
  tanh : α → α

/- How numbers are written: with so many decimals, or in full. -/
structure PyText (α : Type) where
  fixed : ℕ → α → String
  str : α → String

/- What a signal is generated from. -/
structure SignalInput (α : Type) where
  tokenMint : String
  price : α
  priceHistory : List α
  volumeHistory : List α
  liquiditySol : α
  marketCapSol : α
  bondingCurveProgress : α
  holderCount : ℤ

/- A trained model: it gives a probability to each class, or raises. -/
structure Model (α : Type) where
  predictProba : List α → Except String (List α)
  classes : List String

structure MLSignalGenerator (α : Type) where
  model : Option (Model α)

section Model

variable {α : Type} [Field α] [LinearOrder α]

------------------------------------------------------------
-- Features
------------------------------------------------------------

/- `1e-10`. -/
def epsilon : α :=
  1 / 10 ^ 10

/- `np.mean`. -/
def mean (l : List α) : α :=
  l.sum / l.length

/- `l[-n:]`. -/
def lastN (l : List α) (n : ℕ) : List α :=
  l.drop (l.length - n)

/- `np.diff(prices) / (prices[:-1] + 1e-10)`. -/
def returns (prices : List α) : List α :=
  (prices.zip prices.tail).map fun p => (p.2 - p.1) / (p.1 + epsilon)

/- The relative strength of the last fourteen returns. -/
def rsi (returns : List α) : α :=
  let last := lastN returns 14
  let gains := last.filter (0 < ·)
  let losses := (last.filter (· < 0)).map (-·)
  let avgGain := if gains = [] then 0 else mean gains
  let avgLoss := if losses = [] then 0 else mean losses
  100 - 100 / (1 + avgGain / (avgLoss + epsilon))

def zeroFeatures : List α :=
  List.replicate 11 0

/- `extract_features(...)`. -/
def extractFeatures (np : Numpy α) (x : SignalInput α) : List α :=
  let prices := x.priceHistory
  let volumes := x.volumeHistory
  if prices.length < 3 then
    zeroFeatures
  else
    let returns := returns prices
    let shortMa := mean (lastN prices (min 5 prices.length))
    let longMa := mean (lastN prices (min 20 prices.length))
    [ if 0 < returns.length then returns.getLastD 0 else 0,
      if 0 < returns.length then mean returns else 0,
      if 1 < returns.length then np.std returns else 0,
      shortMa / (longMa + epsilon) - 1,
      if 14 ≤ returns.length then rsi returns / 100 else 1 / 2,
      if 2 ≤ volumes.length then
        min (volumes.getLastD 0 / (mean volumes.dropLast + epsilon)) 10
      else
        1,
      min (x.liquiditySol / 100) 1,
      min (x.marketCapSol / 1000) 1,
      x.bondingCurveProgress / 100,
      min ((x.holderCount : α) / 1000) 1,
      if 2 < returns.length then np.std returns else 0 ]

------------------------------------------------------------
-- Rules
------------------------------------------------------------

/- The variables of the rules. -/
structure Tally (α : Type) where
  score : α
  reasons : List String

/- A rule moves the score, and may say why. -/
def Tally.add
    (t : Tally α)
    (delta : α)
    (reasons : List String) : Tally α :=
  ⟨t.score + delta, t.reasons ++ reasons⟩

/- The momentum rules. -/
def momentumRules
    (lastReturn meanReturn momentumScore : α)
    (t : Tally α) : Tally α :=
  let t :=
    if 3 / 100 < lastReturn then
      t.add (25 / 100) ["+3% recent price"]
    else
      t
  let t :=
    if 1 / 100 < meanReturn then
      t.add (15 / 100) ["positive trend"]
    else
      t
  if 5 / 100 < momentumScore then
    t.add (20 / 100) ["short MA > long MA"]
  else
    t

/- The RSI rules (prefer not overbought). -/
def rsiRules (rsi : α) (t : Tally α) : Tally α :=
  if 3 / 10 < rsi ∧ rsi < 7 / 10 then
    t.add (10 / 100) ["healthy RSI"]
  else if 8 / 10 < rsi then
    t.add (-(15 / 100)) ["overbought RSI"]
  else
    t

/- The volume spike. -/
def volumeRule
    (text : PyText α)
    (volSpike : α)
    (t : Tally α) : Tally α :=
  if 2 < volSpike then
    t.add (20 / 100) [s!"volume spike {text.fixed 1 volSpike}x"]
  else
    t

/- The market cap filter. -/
def marketCapRule (marketCapSol : α) (t : Tally α) : Tally α :=
  if 5 < marketCapSol ∧ marketCapSol < 500 then
    t.add (15 / 100) ["good market cap range"]
  else if 500 < marketCapSol then
    t.add (-(10 / 100)) []
  else
    t

/- The liquidity filter. -/
def liquidityRule (liquiditySol : α) (t : Tally α) : Tally α :=
  if 2 < liquiditySol then
    t.add (10 / 100) []
  else
    t.add (-(20 / 100)) ["low liquidity risk"]

/- The bonding curve stage. -/
def stageRule (bondingCurveProgress : α) (t : Tally α) : Tally α :=
  if 10 < bondingCurveProgress ∧ bondingCurveProgress < 80 then
    t.add (10 / 100) []
  else
    t

/- `features[i]`. -/
def feature (features : List α) (i : ℕ) : α :=
  features.getD i 0

/- The rules in their order. -/
def rules
    (text : PyText α)
    (features : List α)
    (x : SignalInput α) : Tally α :=
  let t : Tally α := ⟨0, []⟩
  let t :=
    if 11 ≤ features.length then
      volumeRule text (feature features 5)
        (rsiRules (feature features 4)
          (momentumRules (feature features 0) (feature features 1)
            (feature features 3) t))
    else
      t
  stageRule x.bondingCurveProgress
    (liquidityRule x.liquiditySol (marketCapRule x.marketCapSol t))

------------------------------------------------------------
-- The Generator
------------------------------------------------------------

/- A signal about the token of an input. -/
def SignalInput.signal
    (x : SignalInput α)
    (direction : SignalDirection)
    (confidence : α)
    (reason : String)
    (mlScore : α) : Signal α where
  direction := direction
  confidence := confidence
  reason := reason
  tokenMint := x.tokenMint
  price := x.price
  marketCapSol := x.marketCapSol
  liquiditySol := x.liquiditySol
  bondingCurveProgress := x.bondingCurveProgress
  volumeScore := 0
  momentumScore := 0
  mlScore := mlScore

/- `"; ".join(reasons) if reasons else "neutral"`. -/
def Tally.reason (t : Tally α) : String :=
  if t.reasons = [] then "neutral"
  else String.intercalate "; " t.reasons

/- The signal of a score. -/
def scoreSignal
    (x : SignalInput α)
    (score : α)
    (reason : String) : Signal α :=
  if 55 / 100 < score then
    x.signal .buy score reason score
  else if score < 25 / 100 then
    x.signal .sell (1 - score) reason score
  else
    x.signal .hold (1 / 2) reason score

/- `_rule_based_signal(...)`, which reads no history. -/
def ruleBasedSignal
    (text : PyText α)
    (features : List α)
    (x : SignalInput α) : Signal α :=
  let t := rules text features x
  scoreSignal x (max 0 (min 1 t.score)) t.reason

/- `dict(zip(classes, proba)).get(name, d)`. -/
def classProba
    (classes : List String)
    (proba : List α)
    (name : String)
    (d : α) : α :=
  ((classes.zip proba).reverse.lookup name).getD d

/- `_ml_signal(...)`, for what the model has returned. -/
def modelSignal
    (text : PyText α)
    (classes : List String)
    (proba : List α)
    (x : SignalInput α) : Signal α :=
  let buyProb := classProba classes proba "BUY" 0
  let sellProb := classProba classes proba "SELL" 0
  let holdProb := classProba classes proba "HOLD" 1
  let reason :=
    s!"ML model: buy={text.fixed 2 buyProb} sell={text.fixed 2 sellProb}"
  if sellProb < buyProb ∧ holdProb < buyProb then
    x.signal .buy buyProb reason buyProb
  else if buyProb < sellProb ∧ holdProb < sellProb then
    x.signal .sell sellProb reason sellProb
  else
    x.signal .hold holdProb reason sellProb

/- `_ml_signal(...)`: a model that raises leaves it to the rules. -/
def mlSignal
    (text : PyText α)
    (model : Model α)
    (features : List α)
    (x : SignalInput α) : Signal α :=
  match model.predictProba features with
  | .ok proba => modelSignal text model.classes proba x
  | .error _ => ruleBasedSignal text features x

/- `generate_signal(...)`. -/
def generateSignal
    (np : Numpy α)
    (text : PyText α)
    (gen : MLSignalGenerator α)
    (x : SignalInput α) : Signal α :=
  let features := extractFeatures np x
  match gen.model with
  | some model => mlSignal text model features x
  | none => ruleBasedSignal text features x

/- The rules give the signal: there is no model, or it raises. -/
def ByRules
    (np : Numpy α)
    (gen : MLSignalGenerator α)
    (x : SignalInput α) : Prop :=
  ∀ model ∈ gen.model,
    ∃ error, model.predictProba (extractFeatures np x) = .error error

------------------------------------------------------------
-- Points
------------------------------------------------------------

/- The points of the momentum rules, a twentieth each. -/
def momentumPoints (lastReturn meanReturn momentumScore : α) : ℤ :=
  (if 3 / 100 < lastReturn then 5 else 0) +
    (if 1 / 100 < meanReturn then 3 else 0) +
      (if 5 / 100 < momentumScore then 4 else 0)

def rsiPoints (rsi : α) : ℤ :=
  if 3 / 10 < rsi ∧ rsi < 7 / 10 then 2
  else if 8 / 10 < rsi then -3
  else 0

def volumePoints (volSpike : α) : ℤ :=
  if 2 < volSpike then 4 else 0

def marketCapPoints (marketCapSol : α) : ℤ :=
  if 5 < marketCapSol ∧ marketCapSol < 500 then 3
  else if 500 < marketCapSol then -2
  else 0

def liquidityPoints (liquiditySol : α) : ℤ :=
  if 2 < liquiditySol then 2 else -4

def stagePoints (bondingCurveProgress : α) : ℤ :=
  if 10 < bondingCurveProgress ∧ bondingCurveProgress < 80 then 2
  else 0

/- The points of a token, by its features and its market. -/
def rulePoints (np : Numpy α) (x : SignalInput α) : ℤ :=
  let features := extractFeatures np x
  momentumPoints (feature features 0) (feature features 1)
      (feature features 3) +
    rsiPoints (feature features 4) +
    volumePoints (feature features 5) +
    marketCapPoints x.marketCapSol +
    liquidityPoints x.liquiditySol +
    stagePoints x.bondingCurveProgress

theorem length_extractFeatures (np : Numpy α) (x : SignalInput α) :
    (extractFeatures np x).length = 11 := by
  unfold extractFeatures zeroFeatures
  dsimp only
  split
  · exact List.length_replicate
  · rfl

section Rules

variable [IsStrictOrderedRing α] {t : Tally α}

theorem score_momentumRules (lastReturn meanReturn momentumScore : α) :
    (momentumRules lastReturn meanReturn momentumScore t).score =
      t.score +
        momentumPoints lastReturn meanReturn momentumScore / 20 := by
  unfold momentumRules momentumPoints
  split_ifs <;> push_cast [Tally.add] <;> ring

theorem score_rsiRules (rsi : α) :
    (rsiRules rsi t).score = t.score + rsiPoints rsi / 20 := by
  unfold rsiRules rsiPoints
  split_ifs <;> push_cast [Tally.add] <;> ring

theorem score_volumeRule (text : PyText α) (volSpike : α) :
    (volumeRule text volSpike t).score =
      t.score + volumePoints volSpike / 20 := by
  unfold volumeRule volumePoints
  split_ifs <;> push_cast [Tally.add] <;> ring

theorem score_marketCapRule (marketCapSol : α) :
    (marketCapRule marketCapSol t).score =
      t.score + marketCapPoints marketCapSol / 20 := by
  unfold marketCapRule marketCapPoints
  split_ifs <;> push_cast [Tally.add] <;> ring

theorem score_liquidityRule (liquiditySol : α) :
    (liquidityRule liquiditySol t).score =
      t.score + liquidityPoints liquiditySol / 20 := by
  unfold liquidityRule liquidityPoints
  split_ifs <;> push_cast [Tally.add] <;> ring

theorem score_stageRule (bondingCurveProgress : α) :
    (stageRule bondingCurveProgress t).score =
      t.score + stagePoints bondingCurveProgress / 20 := by
  unfold stageRule stagePoints
  split_ifs <;> push_cast [Tally.add] <;> ring

/- The rules add up the points. -/
theorem score_rules
    (np : Numpy α)
    (text : PyText α)
    (x : SignalInput α) :
    (rules text (extractFeatures np x) x).score =
      rulePoints np x / 20 := by
  have hLength : 11 ≤ (extractFeatures np x).length :=
    (length_extractFeatures np x).ge
  unfold rules rulePoints
  rw [score_stageRule, score_liquidityRule, score_marketCapRule,
    if_pos hLength, score_volumeRule, score_rsiRules,
    score_momentumRules]
  push_cast
  ring

end Rules

------------------------------------------------------------
-- Scores and Confidence
------------------------------------------------------------

section Scores

variable (np : Numpy α) (text : PyText α) (gen : MLSignalGenerator α)
variable (x : SignalInput α)

/- The score of a signal to trade is its confidence. -/
def Signal.Scored (s : Signal α) : Prop :=
  s.direction ≠ .hold → s.mlScore = s.confidence

theorem scored_modelSignal (classes : List String) (proba : List α) :
    (modelSignal text classes proba x).Scored := by
  unfold modelSignal Signal.Scored
  dsimp only
  split_ifs
  · exact fun _ => rfl
  · exact fun _ => rfl
  · exact fun hTrade => absurd rfl hTrade

/- A low score sells, and is as confident as it is low. -/
theorem scoreSignal_low
    {score : α}
    (reason : String)
    (hLow : score < 25 / 100)
    (hHigh : ¬55 / 100 < score) :
    scoreSignal x score reason =
      x.signal .sell (1 - score) reason score := by
  unfold scoreSignal
  rw [if_neg hHigh, if_pos hLow]

variable [IsStrictOrderedRing α]

theorem scored_scoreSignal_iff (score : α) (reason : String) :
    (scoreSignal x score reason).Scored ↔ 25 / 100 ≤ score := by
  unfold scoreSignal Signal.Scored
  split_ifs with hHigh hLow
  · exact iff_of_true (fun _ => rfl) (by linarith)
  · refine iff_of_false (fun hScored => ?_) (not_le.mpr hLow)
    have hSame : score = 1 - score := hScored nofun
    linarith
  · exact iff_of_true (fun hTrade => absurd rfl hTrade) (not_lt.mp hLow)

/- The rules have a low score below five points. -/
theorem score_lt_iff :
    max 0 (min 1 (rules text (extractFeatures np x) x).score) <
        (25 / 100 : α) ↔
      rulePoints np x < 5 := by
  have hClamp :
      ∀ score : α,
        max 0 (min 1 score) < 25 / 100 ↔ score < 25 / 100 := by
    intro score
    rw [max_lt_iff, min_lt_iff]
    constructor
    · rintro ⟨_, hLt | hLt⟩
      · exact absurd hLt (by norm_num)
      · exact hLt
    · exact fun hLt => ⟨by norm_num, .inr hLt⟩
  have hFive : ((5 : ℤ) : α) = 25 / 100 * 20 := by norm_num
  rw [hClamp, score_rules, div_lt_iff₀ (by norm_num), ← hFive,
    Int.cast_lt]

theorem scored_ruleBasedSignal_iff :
    (ruleBasedSignal text (extractFeatures np x) x).Scored ↔
      ¬rulePoints np x < 5 := by
  unfold ruleBasedSignal
  rw [scored_scoreSignal_iff, ← score_lt_iff np text x, not_lt]

theorem mlScore_ruleBasedSignal_lt
    (hFew : rulePoints np x < 5) :
    (ruleBasedSignal text (extractFeatures np x) x).mlScore <
      25 / 100 := by
  have hLow := (score_lt_iff np text x).mpr hFew
  have hHigh :
      ¬55 / 100 <
        max 0 (min 1 (rules text (extractFeatures np x) x).score) := by
    intro hHigh
    linarith
  unfold ruleBasedSignal
  dsimp only
  rw [scoreSignal_low x _ hLow hHigh]
  exact hLow

omit [IsStrictOrderedRing α] in
/- A signal is that of the rules, or that of a model. -/
theorem generateSignal_eq :
    (ByRules np gen x ∧
        generateSignal np text gen x =
          ruleBasedSignal text (extractFeatures np x) x) ∨
      (¬ByRules np gen x ∧
        ∃ classes proba,
          generateSignal np text gen x =
            modelSignal text classes proba x) := by
  unfold ByRules generateSignal
  cases gen.model with
  | none => exact .inl ⟨nofun, rfl⟩
  | some model =>
      unfold mlSignal
      cases hProba : model.predictProba (extractFeatures np x) with
      | error error =>
          refine .inl ⟨?_, by simp only [hProba]⟩
          intro m hModel
          cases hModel
          exact ⟨error, hProba⟩
      | ok proba =>
          refine .inr ⟨?_, model.classes, proba, by simp only [hProba]⟩
          intro hRaises
          rcases hRaises model rfl with ⟨error, hError⟩
          rw [hProba] at hError
          cases hError

/-
  The score of a signal to trade is its confidence exactly if a
  model gives the signal, or the rules have five points.
-/
theorem scored_generateSignal_iff :
    (generateSignal np text gen x).Scored ↔
      ¬(ByRules np gen x ∧ rulePoints np x < 5) := by
  rcases generateSignal_eq np text gen x with
    ⟨hRules, hSignal⟩ | ⟨hModel, classes, proba, hSignal⟩
  · rw [hSignal, scored_ruleBasedSignal_iff]
    simp only [hRules, true_and, not_lt]
  · rw [hSignal]
    exact iff_of_true (scored_modelSignal text x classes proba)
      fun hBoth => hModel hBoth.1

end Scores

end Model

end Signals

end Pumpy
