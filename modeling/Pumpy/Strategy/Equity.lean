import Mathlib.Tactic.Linarith
import Pumpy.Numeric.Drawdown
import Pumpy.Strategy.Backtest

/-
  The drawdown that a backtest reports, in exact arithmetic,
  against the drawdowns along the equity path it builds.

  Key definitions include:
    * `drawdowns`
    * `DrawdownMatches`
    * `entries`
    * `Loses`

  The main result is `reportsDrawdown_iff`: the metrics let the
  equity start at one, not at the initial amount, and look at
  no series of fewer than two trades; so they agree with the
  path exactly if no entered bar loses, or the initial amount
  is one and two bars are entered.
-/

------------------------------------------------------------
-- The Drawdown Loop
------------------------------------------------------------

namespace Pumpy

namespace Backtest

/- The library of exact arithmetic: nothing is rounded. -/
def exactMath (sqrt : ℚ → ℚ) : PyMath ℚ where
  sum := List.sum
  sqrt := sqrt
  round := fun x _ => x

section Loop

variable {gains : List ℚ}

/- The drawdown loop follows the equity that starts at one. -/
structure Follows (gains : List ℚ) (st : DrawdownState ℚ) : Prop where
  equity : st.equity = Drawdown.equity 1 gains gains.length
  peak : st.peak = Drawdown.peak 1 gains gains.length
  greatest : IsGreatest (Drawdown.percents 1 gains) st.maxDdPct

theorem follows_start : Follows [] drawdownStart where
  equity := Drawdown.equity_zero.symm
  peak := by
    simp [Drawdown.peak, drawdownStart]
  greatest := by
    rw [Drawdown.percents_nil]
    exact isGreatest_singleton

/- A turn of the loop, once its peak is known to be positive. -/
theorem drawdownTurn_eq
    {st : DrawdownState ℚ}
    {p : ℚ}
    (hPeak : 0 < max (st.equity + p) st.peak) :
    drawdownTurn st p =
      { equity := st.equity + p
        peak := max (st.equity + p) st.peak
        maxDdPct :=
          max
            ((max (st.equity + p) st.peak - (st.equity + p)) /
              max (st.equity + p) st.peak * 100)
            st.maxDdPct } := by
  have hMax :
      ∀ a b : ℚ, (if b < a then a else b) = max a b := by
    intro a b
    split
    · next hLt => exact (max_eq_left hLt.le).symm
    · next hLe => exact (max_eq_right (not_lt.mp hLe)).symm
  unfold drawdownTurn
  simp only [hMax, if_pos hPeak, Nat.cast_ofNat]

theorem Follows.turn
    {st : DrawdownState ℚ}
    (hFollows : Follows gains st)
    (p : ℚ) :
    Follows (gains ++ [p]) (drawdownTurn st p) := by
  have hLength : (gains ++ [p]).length = gains.length + 1 := by simp
  have hIn : gains.length < (gains ++ [p]).length := by simp
  have hEquity :
      st.equity + p =
        Drawdown.equity 1 (gains ++ [p]) (gains.length + 1) := by
    rw [Drawdown.equity_succ hIn, Drawdown.equity_append _ le_rfl,
      List.getElem_concat_length rfl, ← hFollows.equity]
  have hPeak :
      max (st.equity + p) st.peak =
        Drawdown.peak 1 (gains ++ [p]) (gains.length + 1) := by
    rw [Drawdown.peak_succ, Drawdown.peak_append _ le_rfl,
      ← hFollows.peak, hEquity]
  have hPos : 0 < max (st.equity + p) st.peak := by
    rw [hPeak]
    exact one_pos.trans_le Drawdown.start_le_peak
  rw [drawdownTurn_eq hPos, hPeak, hEquity]
  refine ⟨?_, ?_, ?_⟩
  · rw [hLength]
  · rw [hLength]
  · exact Drawdown.isGreatest_concat hFollows.greatest

theorem follows_loop :
    Follows gains (gains.foldl drawdownTurn drawdownStart) := by
  induction gains using List.reverseRecOn with
  | nil => exact follows_start
  | append_singleton gains p ih =>
      rw [List.foldl_append]
      exact ih.turn p

end Loop

------------------------------------------------------------
-- The Equity Path
------------------------------------------------------------

section Books

variable {sqrt : ℚ → ℚ} {initialSol : ℚ} {gains : List ℚ}

/- The replay adds every pnl to the initial amount. -/
theorem sol_book :
    (gains.foldl (Replay.book (exactMath sqrt))
        (.new initialSol)).sol =
      Drawdown.equity initialSol gains gains.length := by
  unfold Drawdown.equity
  rw [List.take_length]
  induction gains using List.reverseRecOn with
  | nil => simp [Replay.new]
  | append_singleton gains p ih =>
      rw [List.foldl_append, List.sum_append, ← add_assoc, ← ih]
      simp [Replay.book]

/- Its equity curve is the path from there. -/
theorem equityCurve_book :
    (gains.foldl (Replay.book (exactMath sqrt))
        (.new initialSol)).equityCurve =
      Drawdown.path initialSol gains := by
  induction gains using List.reverseRecOn with
  | nil => exact Drawdown.path_nil.symm
  | append_singleton gains p ih =>
      have hSol :
          ((gains ++ [p]).foldl (Replay.book (exactMath sqrt))
              (.new initialSol)).sol =
            Drawdown.equity initialSol (gains ++ [p])
              (gains.length + 1) := by
        rw [sol_book, List.length_append, List.length_singleton]
      rw [List.foldl_append] at hSol ⊢
      rw [Drawdown.path_concat, ← ih, ← hSol]
      rfl

end Books

/-
  The drawdowns along an equity path: at each moment, what is
  lost of the highest equity so far, in percent.
-/
def drawdowns (path : List ℚ) : Set ℚ :=
  {d | ∃ k, ∃ hIn : k < path.length, ∃ peak,
    IsGreatest {e | e ∈ path.take (k + 1)} peak ∧
      d = (peak - path[k]) / peak * 100}

theorem drawdowns_path (start : ℚ) (gains : List ℚ) :
    drawdowns (Drawdown.path start gains) =
      Drawdown.percents start gains := by
  ext d
  constructor
  · rintro ⟨k, hIn, peak, hPeak, rfl⟩
    have hK : k ≤ gains.length := by
      rw [Drawdown.length_path] at hIn
      exact Nat.le_of_lt_succ hIn
    refine ⟨k, hK, ?_⟩
    rw [hPeak.unique (Drawdown.isGreatest_peak hK),
      Drawdown.getElem_path hIn]
    rfl
  · rintro ⟨k, hK, rfl⟩
    have hIn : k < (Drawdown.path start gains).length := by
      rw [Drawdown.length_path]
      exact Nat.lt_succ_of_le hK
    refine ⟨k, hIn, _, Drawdown.isGreatest_peak hK, ?_⟩
    rw [Drawdown.getElem_path hIn]
    rfl

/- A reported drawdown is the greatest along an equity path. -/
structure DrawdownMatches (path : List ℚ) (pct : ℚ) : Prop where
  greatest : IsGreatest (drawdowns path) pct
  bounded : (∀ e ∈ path, 0 ≤ e) → pct ≤ 100

theorem drawdownMatches_path_iff
    {start m : ℚ}
    {gains : List ℚ}
    (hStart : 0 < start) :
    DrawdownMatches (Drawdown.path start gains) m ↔
      IsGreatest (Drawdown.percents start gains) m := by
  rw [← drawdowns_path]
  refine ⟨DrawdownMatches.greatest, fun hM => ⟨hM, fun hPath => ?_⟩⟩
  rw [drawdowns_path] at hM
  rcases hM.1 with ⟨k, hK, rfl⟩
  apply Drawdown.percent_le_hundred hStart
  have hIn : k < (Drawdown.path start gains).length := by
    rw [Drawdown.length_path]
    exact Nat.lt_succ_of_le hK
  rw [← Drawdown.getElem_path hIn]
  exact hPath _ (List.getElem_mem hIn)

------------------------------------------------------------
-- Entered Bars
------------------------------------------------------------

section Entries

variable {α : Type} [PyFloat α]
variable (math : PyMath α) (strategyName : String) (cfg : Config α)

/- The bars that are entered, with their series. -/
def entries (series : Series α) : List (List α × ℕ) :=
  series.prices.flatMap fun token =>
    ((bars token.2).filter
      (shouldEnter math strategyName cfg
        (series.metadata.lookup token.1) token.2)).map fun i =>
          (token.2, i)

/- What the trade at an entered bar makes. -/
def pnlAt (entry : List α × ℕ) : α :=
  cfg.buyAmountSol *
    returnPct cfg (bar entry.1 (entry.2 - 1)) (bar entry.1 entry.2)

/- An entered bar has a price above zero before it. -/
theorem not_le_of_shouldEnter
    {known : Option (Meta α)}
    {history : List α}
    {i : ℕ}
    (hEnter : shouldEnter math strategyName cfg known history i) :
    ¬bar history (i - 1) ≤ 0 := by
  intro hLow
  unfold shouldEnter at hEnter
  simp only [if_pos hLow] at hEnter
  exact absurd hEnter Bool.false_ne_true

theorem tradeAt_eq
    (known : Option (Meta α))
    (history : List α)
    (i : ℕ) :
    tradeAt math strategyName cfg known history i =
      if shouldEnter math strategyName cfg known history i then
        some (pnlAt cfg (history, i))
      else
        none := by
  unfold tradeAt
  split
  · next hEnter =>
      exact if_neg (not_le_of_shouldEnter math strategyName cfg hEnter)
  · rfl

/- The trades are those of the entered bars. -/
theorem pnls_eq (series : Series α) :
    pnls math strategyName cfg series =
      (entries math strategyName cfg series).map (pnlAt cfg) := by
  unfold pnls entries trades
  rw [List.map_flatMap]
  congr 1
  funext token
  rw [List.map_filterMap, List.map_map, ← List.filterMap_eq_filter,
    List.map_filterMap]
  congr 1
  funext i
  rw [tradeAt_eq]
  by_cases hEnter :
      shouldEnter math strategyName cfg
        (series.metadata.lookup token.1) token.2 i = true
  · simp [hEnter, Option.guard]
  · simp [hEnter, Option.guard]

end Entries

------------------------------------------------------------
-- Losing Trades
------------------------------------------------------------

section Losses

variable {cfg : Config ℚ} {entry exit : ℚ}

/-
  The trade from one price to another loses: a price that falls
  with a stop that lets it, or a target below zero; or the other
  way around, if the amount is negative.
-/
def Loses (cfg : Config ℚ) (entry exit : ℚ) : Prop :=
  (0 < cfg.buyAmountSol ∧
    ((exit < entry ∧ ∀ pct ∈ cfg.stopLossPct, 0 < pct) ∨
      ∃ pct ∈ cfg.takeProfitPct, pct < 0)) ∨
  (cfg.buyAmountSol < 0 ∧
    (entry < exit ∨ ∃ pct ∈ cfg.stopLossPct, pct < 0) ∧
      ∀ pct ∈ cfg.takeProfitPct, 0 < pct)

/- The return after the stop. -/
def stopped (cfg : Config ℚ) (entry exit : ℚ) : ℚ :=
  match cfg.stopLossPct with
  | some pct => pyMax ((exit - entry) / entry) (-pct / (100 : ℕ))
  | none => (exit - entry) / entry

theorem pyMax_eq (a b : ℚ) : pyMax a b = max a b := by
  unfold pyMax
  split
  · next hLt => exact (max_eq_right hLt.le).symm
  · next hLe => exact (max_eq_left (not_lt.mp hLe)).symm

theorem pyMin_eq (a b : ℚ) : pyMin a b = min a b := by
  unfold pyMin
  split
  · next hLt => exact (min_eq_right hLt.le).symm
  · next hLe => exact (min_eq_left (not_lt.mp hLe)).symm

theorem returnPct_eq :
    returnPct cfg entry exit =
      match cfg.takeProfitPct with
      | some pct => min (stopped cfg entry exit) (pct / 100)
      | none => stopped cfg entry exit := by
  unfold returnPct stopped
  cases cfg.takeProfitPct with
  | none => cases cfg.stopLossPct <;> rfl
  | some pct => cases cfg.stopLossPct <;> exact pyMin_eq _ _

theorem raw_neg_iff (hEntry : 0 < entry) :
    (exit - entry) / entry < 0 ↔ exit < entry := by
  rw [div_lt_iff₀ hEntry, zero_mul, sub_neg]

theorem raw_pos_iff (hEntry : 0 < entry) :
    0 < (exit - entry) / entry ↔ entry < exit := by
  rw [lt_div_iff₀ hEntry, zero_mul, sub_pos]

theorem stopped_neg_iff (hEntry : 0 < entry) :
    stopped cfg entry exit < 0 ↔
      exit < entry ∧ ∀ pct ∈ cfg.stopLossPct, 0 < pct := by
  unfold stopped
  cases cfg.stopLossPct with
  | none => simp [raw_neg_iff hEntry]
  | some pct =>
      have hStop : -pct / (100 : ℕ) < 0 ↔ 0 < pct := by
        rw [div_lt_iff₀ (by norm_num), zero_mul, neg_lt_zero]
      simp only [pyMax_eq, max_lt_iff, raw_neg_iff hEntry, hStop,
        Option.mem_some_iff, forall_eq']

theorem stopped_pos_iff (hEntry : 0 < entry) :
    0 < stopped cfg entry exit ↔
      entry < exit ∨ ∃ pct ∈ cfg.stopLossPct, pct < 0 := by
  unfold stopped
  cases cfg.stopLossPct with
  | none => simp [raw_pos_iff hEntry]
  | some pct =>
      have hStop : 0 < -pct / (100 : ℕ) ↔ pct < 0 := by
        rw [lt_div_iff₀ (by norm_num), zero_mul, neg_pos]
      simp only [pyMax_eq, lt_max_iff, raw_pos_iff hEntry, hStop,
        Option.mem_some_iff, exists_eq_left']

theorem returnPct_neg_iff (hEntry : 0 < entry) :
    returnPct cfg entry exit < 0 ↔
      (exit < entry ∧ ∀ pct ∈ cfg.stopLossPct, 0 < pct) ∨
        ∃ pct ∈ cfg.takeProfitPct, pct < 0 := by
  rw [returnPct_eq]
  cases cfg.takeProfitPct with
  | none => simp [stopped_neg_iff hEntry]
  | some pct =>
      have hTarget : pct / 100 < 0 ↔ pct < 0 := by
        rw [div_lt_iff₀ (by norm_num), zero_mul]
      simp only [min_lt_iff, stopped_neg_iff hEntry, hTarget,
        Option.mem_some_iff, exists_eq_left']

theorem returnPct_pos_iff (hEntry : 0 < entry) :
    0 < returnPct cfg entry exit ↔
      (entry < exit ∨ ∃ pct ∈ cfg.stopLossPct, pct < 0) ∧
        ∀ pct ∈ cfg.takeProfitPct, 0 < pct := by
  rw [returnPct_eq]
  cases cfg.takeProfitPct with
  | none => simp [stopped_pos_iff hEntry]
  | some pct =>
      have hTarget : 0 < pct / 100 ↔ 0 < pct := by
        rw [lt_div_iff₀ (by norm_num), zero_mul]
      simp only [lt_min_iff, stopped_pos_iff hEntry, hTarget,
        Option.mem_some_iff, forall_eq']

theorem loses_iff (hEntry : 0 < entry) :
    Loses cfg entry exit ↔
      cfg.buyAmountSol * returnPct cfg entry exit < 0 := by
  unfold Loses
  rw [mul_neg_iff, returnPct_neg_iff hEntry, returnPct_pos_iff hEntry]

end Losses

------------------------------------------------------------
-- The Reported Drawdown
------------------------------------------------------------

section Report

variable (sqrt : ℚ → ℚ) (strategyName : String) (cfg : Config ℚ)
variable (series : Series ℚ)

/- No entered bar loses. -/
def NeverLoses : Prop :=
  ∀ e ∈ entries (exactMath sqrt) strategyName cfg series,
    ¬Loses cfg (bar e.1 (e.2 - 1)) (bar e.1 e.2)

theorem neverLoses_iff :
    NeverLoses sqrt strategyName cfg series ↔
      ∀ g ∈ pnls (exactMath sqrt) strategyName cfg series, 0 ≤ g := by
  have hEntry :
      ∀ e ∈ entries (exactMath sqrt) strategyName cfg series,
        0 < bar e.1 (e.2 - 1) := by
    intro e hMem
    unfold entries at hMem
    simp only [List.mem_flatMap, List.mem_map, List.mem_filter] at hMem
    rcases hMem with ⟨token, _, i, ⟨_, hEnter⟩, rfl⟩
    exact not_le.mp (not_le_of_shouldEnter _ _ _ hEnter)
  unfold NeverLoses
  rw [pnls_eq, List.forall_mem_map]
  refine forall₂_congr fun e hMem => ?_
  rw [loses_iff (hEntry e hMem), not_lt]
  rfl

/- The metrics report the drawdown of an equity of one. -/
theorem maxDrawdownPct_eq (gains : List ℚ) :
    (computeAdvancedMetrics (exactMath sqrt) gains).maxDrawdownPct =
      if gains.length < 2 then
        0
      else
        (gains.foldl drawdownTurn drawdownStart).maxDdPct := by
  unfold computeAdvancedMetrics
  split <;> rfl

theorem metricsMatch_iff
    {start : ℚ}
    {gains : List ℚ}
    (hStart : 0 < start) :
    IsGreatest (Drawdown.percents start gains)
        (computeAdvancedMetrics (exactMath sqrt) gains).maxDrawdownPct ↔
      (∀ g ∈ gains, 0 ≤ g) ∨ (start = 1 ∧ 2 ≤ gains.length) := by
  rw [maxDrawdownPct_eq]
  split
  · next hFew =>
      rw [Drawdown.isGreatest_zero_iff hStart]
      constructor
      · exact Or.inl
      · rintro (hGains | ⟨_, hTwo⟩)
        · exact hGains
        · exact absurd hFew (not_lt.mpr hTwo)
  · next hTwo =>
      rw [Drawdown.isGreatest_iff one_pos hStart follows_loop.greatest]
      constructor
      · rintro (hOne | hGains)
        · exact .inr ⟨hOne.symm, not_lt.mp hTwo⟩
        · exact .inl hGains
      · rintro (hGains | ⟨hOne, _⟩)
        · exact .inr hGains
        · exact .inl hOne.symm

variable (engine : Engine ℚ) (rows : Option (List (TokenMetricsRow ℚ)))
variable (body : BacktestRequest ℚ) (strategy : LiveStrategy ℚ)

/- The equity path that a backtest of a known strategy builds. -/
def equityPath : List ℚ :=
  (replay (exactMath sqrt) body (config body strategy)
    (priceSeries engine rows body)).equityCurve

/- A backtest reports the greatest drawdown along its path. -/
def ReportsDrawdown : Prop :=
  ∃ result,
    runBacktest (exactMath sqrt) engine rows body = .ok result ∧
      DrawdownMatches (equityPath sqrt engine rows body strategy)
        result.maxDrawdownPct

theorem reportsDrawdown_pnls
    (hFound :
      engine.strategies.find? (·.name = body.strategyName) =
        some strategy)
    (hStart : 0 < body.initialSol) :
    ReportsDrawdown sqrt engine rows body strategy ↔
      (∀ g ∈ pnls (exactMath sqrt) body.strategyName
          (config body strategy) (priceSeries engine rows body),
        0 ≤ g) ∨
        (body.initialSol = 1 ∧
          2 ≤ (pnls (exactMath sqrt) body.strategyName
            (config body strategy)
            (priceSeries engine rows body)).length) := by
  have hPath :
      equityPath sqrt engine rows body strategy =
        Drawdown.path body.initialSol
          (pnls (exactMath sqrt) body.strategyName
            (config body strategy) (priceSeries engine rows body)) := by
    unfold equityPath
    rw [replay_eq, equityCurve_book]
  have hReport :
      ReportsDrawdown sqrt engine rows body strategy ↔
        DrawdownMatches (equityPath sqrt engine rows body strategy)
          (computeAdvancedMetrics (exactMath sqrt)
            (pnls (exactMath sqrt) body.strategyName
              (config body strategy)
              (priceSeries engine rows body))).maxDrawdownPct := by
    unfold ReportsDrawdown runBacktest
    rw [hFound]
    simp only [pnlSeries_replay, Except.ok.injEq, exists_eq_left']
  rw [hReport, hPath, drawdownMatches_path_iff hStart,
    metricsMatch_iff sqrt hStart]

/-
  It does exactly if no entered bar loses, or the initial amount
  is one and at least two bars are entered.
-/
theorem reportsDrawdown_iff
    (hFound :
      engine.strategies.find? (·.name = body.strategyName) =
        some strategy)
    (hStart : 0 < body.initialSol) :
    ReportsDrawdown sqrt engine rows body strategy ↔
      NeverLoses sqrt body.strategyName (config body strategy)
          (priceSeries engine rows body) ∨
        (body.initialSol = 1 ∧
          2 ≤ (entries (exactMath sqrt) body.strategyName
            (config body strategy)
            (priceSeries engine rows body)).length) := by
  rw [reportsDrawdown_pnls sqrt engine rows body strategy hFound hStart,
    neverLoses_iff, pnls_eq, List.length_map]

end Report

/- A square root, down to four decimals. -/
def sqrtFloor (x : ℚ) : ℚ :=
  ((x * 10 ^ 8).floor.toNat.sqrt : ℚ) / 10 ^ 4

/- The sniper with its default settings. -/
def sawtoothSniper : LiveStrategy ℚ :=
  ⟨"sniper", some (1 / 20), none, none, some 1⟩

/- The sniper, and a token that rises and falls twice. -/
def sawtooth : Engine ℚ where
  strategies := [sawtoothSniper]
  trackedTokens := [("sawtooth", ⟨[1, 2, 1, 2, 4, 2], 20, 10⟩)]

/- Half of the amount is lost in each of two trades. -/
def twoLosses (initialSol : ℚ) : BacktestRequest ℚ where
  strategyName := "sniper"
  tokenMints := none
  days := 7
  initialSol := initialSol
  buyAmountSol := some 1
  stopLossPct := some 50
  takeProfitPct := some 100
  minLiquiditySol := none

theorem reportsDrawdown_iff_one :
    ReportsDrawdown sqrtFloor sawtooth none (twoLosses 1)
        sawtoothSniper ↔
      NeverLoses sqrtFloor "sniper"
          (config (twoLosses 1) sawtoothSniper)
          (priceSeries sawtooth none (twoLosses 1)) ∨
        ((1 : ℚ) = 1 ∧
          2 ≤ (entries (exactMath sqrtFloor) "sniper"
            (config (twoLosses 1) sawtoothSniper)
            (priceSeries sawtooth none (twoLosses 1))).length) :=
  reportsDrawdown_iff sqrtFloor sawtooth none (twoLosses 1)
    sawtoothSniper rfl one_pos

/- From ten, a tenth is lost, and all of it is reported. -/
theorem not_reportsDrawdown_ten :
    equityPath sqrtFloor sawtooth none (twoLosses 10) sawtoothSniper =
        [10, 19 / 2, 9] ∧
      (runBacktest (exactMath sqrtFloor) sawtooth none
          (twoLosses 10)).map (·.maxDrawdownPct) =
        .ok 100 ∧
      ¬ReportsDrawdown sqrtFloor sawtooth none (twoLosses 10)
        sawtoothSniper := by
  have hPnls :
      pnls (exactMath sqrtFloor) "sniper"
          (config (twoLosses 10) sawtoothSniper)
          (priceSeries sawtooth none (twoLosses 10)) =
        [-1 / 2, -1 / 2] := by
    decide +kernel
  refine ⟨by decide +kernel, by decide +kernel, ?_⟩
  rw [reportsDrawdown_pnls sqrtFloor sawtooth none (twoLosses 10)
    sawtoothSniper rfl (by decide +kernel)]
  change ¬((∀ g ∈ pnls _ "sniper" _ _, 0 ≤ g) ∨ (10 : ℚ) = 1 ∧ _)
  rw [hPnls]
  decide +kernel

end Backtest

end Pumpy
