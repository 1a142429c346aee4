import Pumpy.Grpc.Service
import Pumpy.Interleaving.Transition
import Pumpy.Numeric.Window
import Pumpy.Strategy.Backtest
import Pumpy.Strategy.Momentum

/-
  The prices that the strategy service keeps of a token: the
  events that its collector reads off the stream of orders
  (python-strategy/analytics/data_collector.py), and what
  `_on_token_event` makes of them
  (python-strategy/strategy_engine.py).

  Key definitions include:
    * `parseUpdate`
    * `onTokenEvent`
    * `KeepsHistory`
    * `Recordable`

  The main result is `keepsHistory_iff`: the history of every
  token is that of its events exactly in the runs in which no
  price is in the history already.
-/

------------------------------------------------------------
-- The Collector
------------------------------------------------------------

namespace Pumpy

namespace PriceHistory

open Interleaving Backtest Momentum

section Model

variable {α : Type} [PyFloat α]

/- What is read of an update of the stream. -/
structure StreamUpdate (α : Type) where
  status : Option String
  tokenMint : Option String
  executedPrice : Option α
  executedAmount : Option ℕ
  marketCapSol : Option α
  volumeSol : Option α
  holderCount : Option ℤ
  bondingCurveProgress : Option α

/- `NEW_TOKEN_STATUSES`. -/
def newTokenStatuses : List String :=
  ["Pending", "Executing", "PENDING", "EXECUTING"]

/- `_is_valid_mint(value)`. -/
def isValidMint (value : String) : Bool :=
  if value = "" ∨ '-' ∈ value.toList then
    false
  else
    decide (32 ≤ value.length ∧ value.length ≤ 44)

/- `_parse_update(update)`. -/
def parseUpdate
    (update : StreamUpdate α) : Option (TokenMarketData α) :=
  let status := toUppercase (update.status.getD "")
  let tokenMint := update.tokenMint.getD ""
  if status ∉ newTokenStatuses then
    none
  else if isValidMint tokenMint = false then
    none
  else
    let price := orElse update.executedPrice 0
    let amountLamports := update.executedAmount.getD 0
    let liquiditySol : α := amountLamports / (1000000000 : ℕ)
    some
      { mint := tokenMint
        price := price
        liquiditySol := liquiditySol
        marketCapSol := orElse update.marketCapSol 0
        volume24hSol := orElse update.volumeSol 0
        holderCount := update.holderCount.getD 0
        bondingCurveProgress := orElse update.bondingCurveProgress 0
        priceHistory := if 0 < price then [price] else []
        volumeHistory := if 0 < liquiditySol then [liquiditySol] else [] }

------------------------------------------------------------
-- The Engine
------------------------------------------------------------

/- `tracked_tokens`. -/
abbrev Tracked (α : Type) :=
  String → Option (TokenMarketData α)

/- A price is recorded unless the history has it. -/
def record
    (existing : TokenMarketData α)
    (price : α) : TokenMarketData α :=
  if price ∈ existing.priceHistory then
    { existing with price := price }
  else
    { existing with
      price := price
      priceHistory := (existing.priceHistory ++ [price]).rtake 100 }

/- `_on_token_event(token)`. -/
def onTokenEvent
    (tracked : Tracked α)
    (token : TokenMarketData α) : Tracked α :=
  match tracked token.mint with
  | none => Function.update tracked token.mint (some token)
  | some existing =>
      if 0 < token.price then
        Function.update tracked token.mint
          (some (record existing token.price))
      else
        tracked

/- Every event can be handled. -/
def system (α : Type) [PyFloat α] :
    Transition (TokenMarketData α) (Tracked α) where
  step tracked token := some (onTokenEvent tracked token)

------------------------------------------------------------
-- Faithful Histories
------------------------------------------------------------

/- The system, and the events it has handled. -/
def watched (α : Type) [PyFloat α] :
    Transition (TokenMarketData α)
      (Tracked α × List (TokenMarketData α)) :=
  (system α).watch fun _ token past => past ++ [token]

/- The events of a token. -/
def eventsOf
    (mint : String)
    (past : List (TokenMarketData α)) : List (TokenMarketData α) :=
  past.filter fun token => token.mint = mint

/- The positive prices of events, in order of arrival. -/
def positivePrices (events : List (TokenMarketData α)) : List α :=
  (events.map TokenMarketData.price).filter (0 < ·)

/- What is kept of a token is what its events say. -/
structure Faithful
    (first : TokenMarketData α)
    (later : List (TokenMarketData α))
    (token : TokenMarketData α) : Prop where
  history :
    token.priceHistory =
      (first.priceHistory ++ positivePrices later).rtake 100
  price : token.price = (positivePrices later).getLastD first.price

/- A token is tracked once it has an event, and faithfully. -/
def KeepsToken
    (p : Tracked α × List (TokenMarketData α))
    (mint : String) : Prop :=
  match eventsOf mint p.2 with
  | [] => p.1 mint = none
  | first :: later =>
      ∃ token, p.1 mint = some token ∧ Faithful first later token

def KeepsHistory (p : Tracked α × List (TokenMarketData α)) : Prop :=
  ∀ mint, KeepsToken p mint

/-
  A first history is not too long; and a later price is not in
  the history yet, or the history is full of it.
-/
def Recordable
    (p : Tracked α × List (TokenMarketData α))
    (token : TokenMarketData α) : Prop :=
  match p.1 token.mint with
  | none => token.priceHistory.length ≤ 100
  | some existing =>
      0 < token.price →
        token.price ∉ existing.priceHistory ∨
          existing.priceHistory = List.replicate 100 token.price

section Histories

variable {first token existing : TokenMarketData α}
variable {past later : List (TokenMarketData α)}
variable {tracked : Tracked α}
variable {mint : String}

theorem positivePrices_concat :
    positivePrices (later ++ [token]) =
      if 0 < token.price then positivePrices later ++ [token.price]
      else positivePrices later := by
  unfold positivePrices
  rw [List.map_append, List.filter_append, List.map_singleton]
  split
  · rename_i hPositive
    rw [List.filter_singleton, decide_eq_true hPositive]
    rfl
  · rename_i hNot
    rw [List.filter_singleton, decide_eq_false hNot]
    exact List.append_nil _

omit [PyFloat α] in
theorem eventsOf_concat :
    eventsOf mint (past ++ [token]) =
      if token.mint = mint then eventsOf mint past ++ [token]
      else eventsOf mint past := by
  unfold eventsOf
  rw [List.filter_append, List.filter_singleton]
  split
  · rename_i hMint
    rw [decide_eq_true hMint]
    rfl
  · rename_i hOther
    rw [decide_eq_false hOther]
    exact List.append_nil _

theorem onTokenEvent_new
    (hNew : tracked token.mint = none) :
    onTokenEvent tracked token =
      Function.update tracked token.mint (some token) := by
  unfold onTokenEvent
  rw [hNew]

theorem onTokenEvent_priced
    (hKnown : tracked token.mint = some existing)
    (hPositive : 0 < token.price) :
    onTokenEvent tracked token =
      Function.update tracked token.mint
        (some (record existing token.price)) := by
  unfold onTokenEvent
  rw [hKnown]
  exact if_pos hPositive

theorem onTokenEvent_unpriced
    (hKnown : tracked token.mint = some existing)
    (hNot : ¬0 < token.price) :
    onTokenEvent tracked token = tracked := by
  unfold onTokenEvent
  rw [hKnown]
  exact if_neg hNot

/- The events of other tokens change nothing. -/
theorem onTokenEvent_of_ne
    (hOther : token.mint ≠ mint) :
    onTokenEvent tracked token mint = tracked mint := by
  cases hKnown : tracked token.mint with
  | none =>
      rw [onTokenEvent_new hKnown]
      exact Function.update_of_ne hOther.symm _ _
  | some existing =>
      by_cases hPositive : 0 < token.price
      · rw [onTokenEvent_priced hKnown hPositive]
        exact Function.update_of_ne hOther.symm _ _
      · rw [onTokenEvent_unpriced hKnown hPositive]

theorem keepsToken_of_ne
    (hOther : token.mint ≠ mint) :
    KeepsToken (onTokenEvent tracked token, past ++ [token]) mint ↔
      KeepsToken (tracked, past) mint := by
  unfold KeepsToken
  dsimp only
  rw [eventsOf_concat, if_neg hOther, onTokenEvent_of_ne hOther]

/- A first event is kept as it is. -/
theorem faithful_first_iff :
    Faithful token [] token ↔ token.priceHistory.length ≤ 100 := by
  have hNone : positivePrices ([] : List (TokenMarketData α)) = [] := rfl
  rw [← Window.rtake_eq_self_iff]
  constructor
  · intro hFaithful
    have hHistory := hFaithful.history
    rw [hNone, List.append_nil] at hHistory
    exact hHistory.symm
  · intro hShort
    refine ⟨?_, rfl⟩
    rw [hNone, List.append_nil, hShort]

/- A positive price is to be pushed, whether the history has it or not. -/
theorem faithful_record_iff
    (hFaithful : Faithful first later existing)
    (hPositive : 0 < token.price) :
    Faithful first (later ++ [token]) (record existing token.price) ↔
      token.price ∉ existing.priceHistory ∨
        existing.priceHistory = List.replicate 100 token.price := by
  have hShort : existing.priceHistory.length ≤ 100 := by
    rw [hFaithful.history, Window.length_rtake]
    exact Nat.min_le_left _ _
  have hPush :
      (first.priceHistory ++ positivePrices (later ++ [token])).rtake 100 =
        Window.push 100 existing.priceHistory token.price := by
    rw [positivePrices_concat, if_pos hPositive, hFaithful.history,
      Window.push_rtake, List.append_assoc]
  have hLast :
      (positivePrices (later ++ [token])).getLastD first.price =
        token.price := by
    rw [positivePrices_concat, if_pos hPositive, List.getLastD_concat]
  by_cases hKnown : token.price ∈ existing.priceHistory
  · rw [← Window.push_eq_self_iff hShort, ← hPush]
    constructor
    · intro hAfter
      have hHistory := hAfter.history
      rw [record, if_pos hKnown] at hHistory
      exact .inr hHistory.symm
    · rintro (hNew | hSame)
      · exact absurd hKnown hNew
      · refine ⟨?_, ?_⟩
        · rw [record, if_pos hKnown]
          exact hSame.symm
        · rw [record, if_pos hKnown, hLast]
  · refine iff_of_true ⟨?_, ?_⟩ (.inl hKnown)
    · rw [record, if_neg hKnown, hPush]
      rfl
    · rw [record, if_neg hKnown, hLast]

/- A price that is not positive is passed over. -/
theorem faithful_concat_iff
    (hNot : ¬0 < token.price) :
    Faithful first (later ++ [token]) existing ↔
      Faithful first later existing := by
  have hSame : positivePrices (later ++ [token]) = positivePrices later := by
    rw [positivePrices_concat, if_neg hNot]
  constructor
  · rintro ⟨hHistory, hPrice⟩
    rw [hSame] at hHistory hPrice
    exact ⟨hHistory, hPrice⟩
  · rintro ⟨hHistory, hPrice⟩
    rw [← hSame] at hHistory hPrice
    exact ⟨hHistory, hPrice⟩

/- After its event, a token is kept if the event can be recorded. -/
theorem keepsToken_onTokenEvent
    (hKeeps : KeepsToken (tracked, past) token.mint) :
    KeepsToken (onTokenEvent tracked token, past ++ [token]) token.mint ↔
      Recordable (tracked, past) token := by
  unfold KeepsToken at hKeeps ⊢
  unfold Recordable
  dsimp only at hKeeps ⊢
  rw [eventsOf_concat, if_pos rfl]
  cases hEvents : eventsOf token.mint past with
  | nil =>
      rw [hEvents] at hKeeps
      dsimp only at hKeeps
      rw [onTokenEvent_new hKeeps, hKeeps, Function.update_self]
      simp only [List.nil_append, Option.some.injEq, exists_eq_left',
        faithful_first_iff]
  | cons first later =>
      rw [hEvents] at hKeeps
      rcases hKeeps with ⟨existing, hKnown, hFaithful⟩
      rw [hKnown]
      dsimp only [List.cons_append]
      by_cases hPositive : 0 < token.price
      · rw [onTokenEvent_priced hKnown hPositive, Function.update_self]
        simp only [Option.some.injEq, exists_eq_left', hPositive,
          true_imp_iff]
        exact faithful_record_iff hFaithful hPositive
      · rw [onTokenEvent_unpriced hKnown hPositive, hKnown]
        simp only [Option.some.injEq, exists_eq_left', hPositive,
          false_imp_iff, iff_true]
        exact (faithful_concat_iff hPositive).mpr hFaithful

theorem keepsHistory_step
    {p q : Tracked α × List (TokenMarketData α)}
    (hKeeps : KeepsHistory p)
    (hStep : (watched α).step p token = some q) :
    KeepsHistory q ↔ Recordable p token := by
  rcases Transition.watch_step.mp hStep with ⟨hEngine, hNote⟩
  have hQ : q = (onTokenEvent p.1 token, p.2 ++ [token]) := by
    rw [hNote, Option.some.inj hEngine]
  rw [hQ, ← keepsToken_onTokenEvent (hKeeps token.mint)]
  constructor
  · exact fun hAfter => hAfter token.mint
  · intro hToken mint
    by_cases hMint : token.mint = mint
    · rw [← hMint]
      exact hToken
    · exact (keepsToken_of_ne hMint).mpr (hKeeps mint)

/-
  What is kept of every token is faithful throughout a run
  exactly if every event of the run can be recorded.
-/
theorem keepsHistory_iff (events : List (TokenMarketData α)) :
    (watched α).Throughout KeepsHistory (fun _ => none, []) events ↔
      (watched α).Meets Recordable (fun _ => none, []) events := by
  apply Transition.throughout_iff_meets
  · exact fun _ => rfl
  · intro p token hNone
    cases Transition.watch_step_none.mp hNone
  · exact fun p token q hKeeps hStep => keepsHistory_step hKeeps hStep

end Histories

end Model

------------------------------------------------------------
-- A Price That Comes Back
------------------------------------------------------------

/- An order for a token waits; it names a price. -/
def pendingAt (price : ℚ) : StreamUpdate ℚ where
  status := some "Pending"
  tokenMint := some "So11111111111111111111111111111111111111112"
  executedPrice := some price
  executedAmount := some 0
  marketCapSol := none
  volumeSol := none
  holderCount := none
  bondingCurveProgress := none

/- The price goes up, and back. -/
def upAndBack : List (TokenMarketData ℚ) :=
  [pendingAt 1, pendingAt 2, pendingAt 1].filterMap parseUpdate

/- The third price is not in the history, though it is the price. -/
theorem not_keepsHistory_upAndBack :
    (((system ℚ).exec (fun _ => none) upAndBack).bind
        fun tracked =>
          (tracked "So11111111111111111111111111111111111111112").map
            fun token => (token.price, token.priceHistory)) =
      some (1, [1, 2]) ∧
      ¬(watched ℚ).Throughout KeepsHistory (fun _ => none, [])
        upAndBack := by
  refine ⟨by decide +kernel, ?_⟩
  intro hKeeps
  have hLast :=
    hKeeps upAndBack [] _ (List.append_nil _).symm rfl
      "So11111111111111111111111111111111111111112"
  rcases hLast with ⟨token, hTracked, hFaithful⟩
  cases hTracked
  have hHistory := congrArg List.length hFaithful.history
  revert hHistory
  decide +kernel

end PriceHistory

end Pumpy
