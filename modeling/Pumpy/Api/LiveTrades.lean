import Pumpy.Api.Fanout
import Mathlib.Data.List.Nodup

/-
  The live trades of the dashboard: a list with one entry for
  an order, which every message for the order overwrites.

  Key definitions include:
    * `LiveTrade`
    * `onMessage`
    * `liveTrades`

  The main result is `status_liveTrades`.
-/

namespace Pumpy

------------------------------------------------------------
-- The hook
------------------------------------------------------------

structure LiveTrade where
  id : String
  mint : String
  tokenName : Option String
  tokenSymbol : Option String
  side : String
  amountSol : F64
  price : Option F64
  status : String
  strategy : Option String
  signature : Option String
  pnlSol : Option F64
  createdAt : String
  executedAt : Option String
deriving DecidableEq

/- A number as JSON carries it: `null` unless it is finite. -/
def jsonNumber : F64 → Option F64
  | .fin q => some (.fin q)
  | .inf _ => none
  | .nan => none

/- The trade a message is read as. -/
def LiveTrade.ofPayload (update : LiveTradePayload) : LiveTrade where
  id := update.id
  mint := update.mint
  tokenName := update.tokenName
  tokenSymbol := update.tokenSymbol
  side := update.side.getD "BUY"
  amountSol := (update.amountSol.bind jsonNumber).getD (.fin 0)
  price := update.price.bind jsonNumber
  status := update.status
  strategy := update.strategy
  signature := update.signature
  pnlSol := update.pnlSol.join.bind jsonNumber
  createdAt := update.createdAt
  executedAt := update.executedAt

def maxLiveTrades : Nat := 100

/- The update of the state in `ws.onmessage`. -/
def onMessage
    (prev : List LiveTrade)
    (update : LiveTradePayload) : List LiveTrade :=
  if update.id = "" then
    prev
  else
    let trade := LiveTrade.ofPayload update
    match prev.findIdx? (·.id = trade.id) with
    | some idx => prev.set idx trade
    | none => (trade :: prev).take maxLiveTrades

/- The trades after the messages, from the first one on. -/
def liveTrades (messages : List LiveTradePayload) : List LiveTrade :=
  messages.foldl onMessage []

------------------------------------------------------------
-- One entry for an order
------------------------------------------------------------

variable {trades : List LiveTrade} {update : LiveTradePayload}
variable {trade : LiveTrade}

/- Replacing the entry of an order keeps the orders of the list. -/
theorem map_id_set
    {idx : Nat}
    (hFound : trades.findIdx? (·.id = trade.id) = some idx) :
    (trades.set idx trade).map LiveTrade.id =
      trades.map LiveTrade.id := by
  rcases List.findIdx?_eq_some_iff_getElem.mp hFound with
    ⟨hLess, hSame, _⟩
  have hId : trades[idx].id = trade.id := of_decide_eq_true hSame
  have hIn : idx < (trades.map LiveTrade.id).length := by
    rwa [List.length_map]
  have hIds : (trades.map LiveTrade.id)[idx] = trade.id := by
    rw [List.getElem_map, hId]
  rw [List.map_set, ← hIds, List.set_getElem_self]

theorem onMessage_once
    (hOnce : (trades.map LiveTrade.id).Nodup) :
    ((onMessage trades update).map LiveTrade.id).Nodup := by
  unfold onMessage
  split
  · exact hOnce
  · dsimp only
    split
    · next idx hFound =>
        rw [map_id_set hFound]
        exact hOnce
    · next hNone =>
        have hNew : update.id ∉ trades.map LiveTrade.id := by
          intro hMem
          rcases List.mem_map.mp hMem with ⟨old, hOld, hId⟩
          have hNot := List.findIdx?_eq_none_iff.mp hNone old hOld
          simp [LiveTrade.ofPayload, hId] at hNot
        rw [List.map_take]
        exact (List.nodup_cons.mpr ⟨hNew, hOnce⟩).sublist
          (List.take_sublist _ _)

/-
  After a message the entry of its order is the one it was
  read as; every other entry was there before.
-/
theorem onMessage_mem
    (hOnce : (trades.map LiveTrade.id).Nodup)
    (hMem : trade ∈ onMessage trades update) :
    trade = LiveTrade.ofPayload update ∧ update.id ≠ "" ∨
      trade ∈ trades ∧ (update.id ≠ "" → trade.id ≠ update.id) := by
  unfold onMessage at hMem
  split at hMem
  · next hEmpty => exact .inr ⟨hMem, fun hNe => (hNe hEmpty).elim⟩
  · next hNe =>
    dsimp only at hMem
    split at hMem
    · next idx hFound =>
        rcases List.findIdx?_eq_some_iff_getElem.mp hFound with
          ⟨hLess, hSame, _⟩
        have hId : trades[idx].id = update.id :=
          of_decide_eq_true hSame
        rcases List.mem_iff_getElem?.mp hMem with ⟨j, hAt⟩
        rw [List.getElem?_set] at hAt
        split at hAt
        · cases hAt
          exact .inl ⟨rfl, hNe⟩
        · next hOther =>
            refine .inr ⟨List.mem_of_getElem? hAt, fun _ hClash => ?_⟩
            rcases List.getElem?_eq_some_iff.mp hAt with ⟨hIn, hTrade⟩
            apply hOther
            have hLess' : idx < (trades.map LiveTrade.id).length := by
              rwa [List.length_map]
            have hIn' : j < (trades.map LiveTrade.id).length := by
              rwa [List.length_map]
            have hIds :
                (trades.map LiveTrade.id)[idx] =
                  (trades.map LiveTrade.id)[j] := by
              simp [hTrade, hId, hClash]
            exact hOnce.getElem_inj_iff.mp hIds
    · next hNone =>
        rcases List.mem_cons.mp (List.mem_of_mem_take hMem) with
          hNew | hOld
        · exact .inl ⟨hNew, hNe⟩
        · refine .inr ⟨hOld, fun _ hClash => ?_⟩
          have hNot := List.findIdx?_eq_none_iff.mp hNone trade hOld
          simp [LiveTrade.ofPayload, hClash] at hNot

theorem liveTrades_once
    (messages : List LiveTradePayload) :
    ((liveTrades messages).map LiveTrade.id).Nodup := by
  induction messages using List.reverseRecOn with
  | nil => exact List.nodup_nil
  | append_singleton messages update ih =>
      rw [liveTrades, List.foldl_append]
      exact onMessage_once ih

/- An entry shows the status of the last message for its order. -/
theorem status_liveTrades
    {messages : List LiveTradePayload}
    (hMem : trade ∈ liveTrades messages) :
    trade.id ≠ "" ∧
      ((messages.filter (·.id = trade.id)).map
        LiveTradePayload.status).getLast? = some trade.status := by
  induction messages using List.reverseRecOn with
  | nil => cases hMem
  | append_singleton messages update ih =>
      rw [liveTrades, List.foldl_append] at hMem
      rcases onMessage_mem (liveTrades_once messages) hMem with
        ⟨rfl, hNe⟩ | ⟨hOld, hOther⟩
      · refine ⟨hNe, ?_⟩
        simp [LiveTrade.ofPayload]
      · rcases ih hOld with ⟨hNe, hLast⟩
        have hDiff : update.id ≠ trade.id := by
          intro hSame
          rw [← hSame] at hNe
          exact hOther hNe hSame.symm
        refine ⟨hNe, ?_⟩
        rw [List.filter_append, List.filter_singleton]
        simp [hDiff, hLast]

end Pumpy
