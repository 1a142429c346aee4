import Pumpy.Numeric.Newest
import Pumpy.Strategy.PriceHistory

/-
  The prices that a backtest is replayed on: the snapshots which
  the strategy service posts of the tokens it tracks
  (`_token_snapshot_loop`, python-strategy/strategy_engine.py),
  the table they are kept in
  (artifacts/api-server/src/routes/token-metrics.ts), and what
  `run_backtest` fetches of it (python-strategy/api/routes.py).

  A post may be lost, and the service may start again, at any
  time.

  Key definitions include:
    * `TokenDict`
    * `FeedEvent`
    * `Feed.system`
    * `MetricsQuery.wanted`
    * `Answers`
    * `Replays`

  The main result is `replays_of_exec`: a backtest replays the
  prices which a token had in the snapshots that arrived, in
  their order, and without a gap up to the last.
-/

namespace Pumpy

namespace Snapshots

open Interleaving Backtest Momentum PriceHistory

------------------------------------------------------------
-- The Tracked Tokens
------------------------------------------------------------

/- `tracked_tokens`, in the order of its keys, which are the mints. -/
structure TokenDict (α : Type) where
  tokens : List (TokenMarketData α)
  keyed : (tokens.map TokenMarketData.mint).Nodup

namespace TokenDict

section Lookup

variable {α : Type}

def empty : TokenDict α :=
  ⟨[], List.nodup_nil⟩

/- `tracked_tokens.get(mint)`. -/
def get (dict : TokenDict α) (mint : String) :
    Option (TokenMarketData α) :=
  dict.tokens.find? fun token => token.mint = mint

end Lookup

variable {α : Type} [PyFloat α]

/- The tokens, after a price of one of them is recorded. -/
def recordIn
    (mint : String)
    (price : α)
    (tokens : List (TokenMarketData α)) : List (TokenMarketData α) :=
  tokens.map fun existing =>
    if existing.mint = mint then record existing price else existing

@[simp] theorem mint_record
    (existing : TokenMarketData α)
    (price : α) :
    (record existing price).mint = existing.mint := by
  unfold record
  split
  · rfl
  · rfl

theorem mints_recordIn
    (mint : String)
    (price : α)
    (tokens : List (TokenMarketData α)) :
    (recordIn mint price tokens).map TokenMarketData.mint =
      tokens.map TokenMarketData.mint := by
  rw [recordIn, List.map_map]
  apply List.map_congr_left
  intro existing _
  rw [Function.comp_apply]
  split
  · exact mint_record existing price
  · rfl

/- `_on_token_event(token)`. -/
def onTokenEvent
    (dict : TokenDict α)
    (token : TokenMarketData α) : TokenDict α :=
  if hTracked : token.mint ∈ dict.tokens.map TokenMarketData.mint then
    if 0 < token.price then
      { tokens := recordIn token.mint token.price dict.tokens
        keyed := by
          rw [mints_recordIn]
          exact dict.keyed }
    else
      dict
  else
    { tokens := dict.tokens ++ [token]
      keyed := by
        rw [List.map_append, List.map_singleton]
        apply List.nodup_append.mpr
        refine ⟨dict.keyed, List.pairwise_singleton _ _, ?_⟩
        intro mint hMem other hOther hSame
        rw [List.mem_singleton.mp hOther] at hSame
        exact hTracked (hSame ▸ hMem) }

omit [PyFloat α] in
theorem get_eq_none_iff
    {dict : TokenDict α}
    {mint : String} :
    dict.get mint = none ↔
      mint ∉ dict.tokens.map TokenMarketData.mint := by
  simp [get, List.find?_eq_none]

omit [PyFloat α] in
theorem mint_of_get
    {dict : TokenDict α}
    {mint : String}
    {token : TokenMarketData α}
    (hGet : dict.get mint = some token) :
    token.mint = mint := by
  have hFound := List.find?_some hGet
  exact of_decide_eq_true hFound

theorem find_recordIn
    (mint key : String)
    (price : α)
    (tokens : List (TokenMarketData α)) :
    (recordIn key price tokens).find? (fun token => token.mint = mint) =
      (tokens.find? fun token => token.mint = mint).map fun existing =>
        if existing.mint = key then record existing price
        else existing := by
  rw [recordIn, List.find?_map]
  congr 2
  funext existing
  rw [Function.comp_apply]
  split
  · rw [mint_record]
  · rfl

/- Read by mint, it is the dictionary of the price histories. -/
theorem get_onTokenEvent
    (dict : TokenDict α)
    (token : TokenMarketData α) :
    (dict.onTokenEvent token).get =
      PriceHistory.onTokenEvent dict.get token := by
  funext mint
  unfold onTokenEvent PriceHistory.onTokenEvent
  split
  · rename_i hTracked
    cases hGet : dict.get token.mint with
    | none => exact absurd hTracked (get_eq_none_iff.mp hGet)
    | some existing =>
      dsimp only
      split
      · rw [get, find_recordIn]
        by_cases hMint : mint = token.mint
        · have hFound := hGet
          rw [get] at hFound
          rw [hMint, Function.update_self, hFound, Option.map_some,
            if_pos (mint_of_get hGet)]
        · rw [Function.update_of_ne hMint]
          cases hOther : dict.get mint with
          | none =>
            rw [get] at hOther
            rw [hOther, Option.map_none]
          | some other =>
            have hKey : ¬other.mint = token.mint := fun hSame =>
              hMint ((mint_of_get hOther).symm.trans hSame)
            rw [get] at hOther
            rw [hOther, Option.map_some, if_neg hKey]
      · exact rfl
  · rename_i hNone
    rw [get_eq_none_iff.mpr hNone]
    by_cases hMint : mint = token.mint
    · have hGet : dict.get token.mint = none :=
        get_eq_none_iff.mpr hNone
      rw [get] at hGet
      simp [hMint, get, List.find?_append, hGet]
    · simp [get, List.find?_append, hMint, Ne.symm hMint]

end TokenDict

------------------------------------------------------------
-- The Table
------------------------------------------------------------

/- One of the `snapshots` of a post. -/
structure Snapshot (α : Type) where
  mint : String
  price : α
  liquiditySol : Option α
  marketCapSol : Option α
  volume24hSol : Option α
  holderCount : Option ℤ
  bondingCurveProgress : Option α

/- A row of `token_metrics`; times are in microseconds. -/
structure MetricsRow (α : Type) extends Snapshot α where
  recordedAt : ℕ

section Model

variable {α : Type}

/-
  POST `/token-metrics`: the rows are inserted together, and are
  of one time.  There is no answer to a post without any.
-/
def recordMetrics
    (now : ℕ)
    (snapshots : Option (List (Snapshot α)))
    (table : List (MetricsRow α)) : Option (List (MetricsRow α)) :=
  match snapshots with
  | none => none
  | some [] => none
  | some batch =>
      some (table ++ batch.map fun s => { s with recordedAt := now })

/- The query of GET `/token-metrics`. -/
structure MetricsQuery where
  days : Option ℤ
  limit : Option ℤ
  mints : List String

namespace MetricsQuery

/- `Math.max(1, Math.min(30, Number(req.query.days ?? 7)))`. -/
def clampedDays (q : MetricsQuery) : ℤ :=
  max 1 (min 30 (q.days.getD 7))

def clampedLimit (q : MetricsQuery) : ℕ :=
  (max 1 (min 5000 (q.limit.getD 1000))).toNat

/- The clock `now` of the server is in milliseconds. -/
def cutoff (q : MetricsQuery) (now : ℕ) : ℤ :=
  (now - q.clampedDays * 24 * 60 * 60 * 1000) * 1000

/- The conditions on the mint of a row. -/
def asksFor (q : MetricsQuery) (mint : String) : Bool :=
  match q.mints with
  | [] => true
  | [only] => decide (mint = only)
  | mints => decide (mint ∈ mints)

/- All conditions. -/
def wanted
    (q : MetricsQuery)
    (now : ℕ)
    (row : MetricsRow α) : Bool :=
  decide (q.cutoff now ≤ row.recordedAt) && q.asksFor row.mint

theorem asksFor_iff
    {q : MetricsQuery}
    {mint : String} :
    q.asksFor mint = true ↔ q.mints = [] ∨ mint ∈ q.mints := by
  unfold asksFor
  split
  · rename_i hNone
    simp [hNone]
  · rename_i only hOnly
    simp [hOnly]
  · rename_i hSome _
    rw [decide_eq_true_iff]
    exact ⟨Or.inr, fun hAsks => hAsks.resolve_left hSome⟩

end MetricsQuery

/- GET `/token-metrics`: the newest rows that are wanted. -/
def Answers
    (table : List (MetricsRow α))
    (q : MetricsQuery)
    (now : ℕ)
    (answer : List (MetricsRow α)) : Prop :=
  Newest.IsNewest MetricsRow.recordedAt q.clampedLimit
    (table.filter (q.wanted now)) answer

/- Only letters and digits, which mean themselves in a URL. -/
def plain (mint : String) : Bool :=
  mint.toList.all Char.isAlphanum

/-
  The mints are written into the URL as they are, and are read
  from it by `readMints`.
-/
def ReadsPlain (readMints : List String → List String) : Prop :=
  ∀ mints, (∀ m ∈ mints, plain m = true) → readMints mints = mints

/- What `run_backtest` asks for. -/
def metricsQuery
    (readMints : List String → List String)
    (body : BacktestRequest α) : MetricsQuery where
  days := some body.days
  limit := some 5000
  mints := readMints ((body.tokenMints.getD []).take 10)

/- A row of the answer, as it is read. -/
def readRow (row : MetricsRow α) : TokenMetricsRow α where
  mint := some row.mint
  price := some row.price
  liquiditySol := row.liquiditySol
  bondingCurveProgress := row.bondingCurveProgress

------------------------------------------------------------
-- The Feed
------------------------------------------------------------

variable [PyFloat α]

/- A token as it is posted. -/
def snapshotOf (token : TokenMarketData α) : Snapshot α where
  mint := token.mint
  price := token.price
  liquiditySol := some token.liquiditySol
  marketCapSol := some token.marketCapSol
  volume24hSol := some token.volume24hSol
  holderCount := some token.holderCount
  bondingCurveProgress := some token.bondingCurveProgress

/- The tokens with a price, as they are posted. -/
def snapshots (tokens : List (TokenMarketData α)) : List (Snapshot α) :=
  (tokens.filter fun token => 0 < token.price).map snapshotOf

/- The mints of `_seed_mock_tokens`. -/
def mockMints : List String :=
  ["7xKXtg2CW87d97TXJSDpbD5jBkheTqA83TZRuJosgAsU",
    "DezXAZ8z7PnrnRJjz3wXBoRgixCa6xjnB7YaB1pPB263",
    "EPjFWdd5AufqSSqeM2qN1xzybapC8G4wEGGkZwyTDt1v"]

/- The tokens in memory, and the table. -/
structure Feed (α : Type) where
  tracked : TokenDict α
  table : List (MetricsRow α)

/-
  The stream has an update; tokens are made up where there are
  none; it is time for a snapshot, and the post arrives or is
  lost; the service starts.
-/
inductive FeedEvent (α : Type) where
  | update (u : StreamUpdate α) : FeedEvent α
  | seed (tokens : List (TokenMarketData α)) : FeedEvent α
  | snapshot (now : ℕ) (arrives : Bool) : FeedEvent α
  | start : FeedEvent α

namespace Feed

def empty : Feed α :=
  ⟨.empty, []⟩

/- One turn of `_token_snapshot_loop`. -/
def takeSnapshot
    (feed : Feed α)
    (now : ℕ)
    (arrives : Bool) : Feed α :=
  match snapshots feed.tracked.tokens with
  | [] => feed
  | batch =>
      if arrives then
        { feed with
          table :=
            (recordMetrics now (some batch) feed.table).getD feed.table }
      else
        feed

def step (feed : Feed α) : FeedEvent α → Option (Feed α)
  | .update u =>
      match parseUpdate u with
      | none => some feed
      | some token =>
          some { feed with tracked := feed.tracked.onTokenEvent token }
  | .seed tokens =>
      if hSeed : feed.tracked.tokens = [] ∧
          tokens.map TokenMarketData.mint = mockMints then
        some
          { feed with
            tracked :=
              { tokens := tokens
                keyed := by
                  rw [hSeed.2]
                  decide } }
      else
        none
  | .snapshot now arrives => some (feed.takeSnapshot now arrives)
  | .start => some { feed with tracked := .empty }

def system : Transition (FeedEvent α) (Feed α) :=
  ⟨step⟩

end Feed

/- The tokens at the time of a snapshot that arrived. -/
structure Sighting (α : Type) where
  time : ℕ
  tokens : List (TokenMarketData α)

/- The note that is taken of an event. -/
def note
    (feed : Feed α)
    (e : FeedEvent α)
    (journal : List (Sighting α)) : List (Sighting α) :=
  match e with
  | .snapshot now true => journal ++ [⟨now, feed.tracked.tokens⟩]
  | _ => journal

/- The feed, and the snapshots that have arrived. -/
def watched (α : Type) [PyFloat α] :
    Transition (FeedEvent α) (Feed α × List (Sighting α)) :=
  Feed.system.watch note

/- The clock of the database goes on from snapshot to snapshot. -/
def Forward : Feed α × List (Sighting α) → FeedEvent α → Prop
  | (_, journal), .snapshot now true => ∀ s ∈ journal, s.time < now
  | _, _ => True

instance (p : Feed α × List (Sighting α)) (e : FeedEvent α) :
    Decidable (Forward p e) := by
  unfold Forward
  split
  · infer_instance
  · infer_instance

/- A token with a price, at the time of a snapshot. -/
def priced
    (mint : String)
    (s : Sighting α) : Option (TokenMarketData α) :=
  (s.tokens.find? fun token => token.mint = mint).filter
    fun token => 0 < token.price

/- What a query could find of a token, oldest first. -/
def sightings
    (q : MetricsQuery)
    (now : ℕ)
    (journal : List (Sighting α))
    (mint : String) : List (TokenMarketData α) :=
  if q.asksFor mint then
    (journal.filter fun s => q.cutoff now ≤ s.time).filterMap
      (priced mint)
  else
    []

/-
  What a backtest knows of a token that it saw so.  A progress of
  zero, which is that of every token of the stream, is taken for
  a missing one.
-/
def metaOf (token : TokenMarketData α) : Meta α where
  liquiditySol := token.liquiditySol
  bondingCurveProgress :=
    if token.bondingCurveProgress = 0 then (50 : ℕ)
    else token.bondingCurveProgress

/-
  The series of a token has the prices of its sightings from some
  time on, and what is known of it is of that time.  All
  sightings are there if the limit leaves room for the rows.
-/
structure Replays
    (table : List (MetricsRow α))
    (q : MetricsQuery)
    (now : ℕ)
    (seen kept : List (TokenMarketData α))
    (prices : Option (List α))
    (known : Option (Meta α)) : Prop where
  newest : kept.IsSuffix seen
  prices : prices.getD [] = kept.map TokenMarketData.price
  known : known = kept.head?.map metaOf
  complete :
    (table.filter (q.wanted now)).length ≤ q.clampedLimit → kept = seen

------------------------------------------------------------
-- What Is Recorded
------------------------------------------------------------

section Recorded

variable {feed : Feed α} {journal : List (Sighting α)}
variable {token : TokenMarketData α} {s : Sighting α}
variable {q : MetricsQuery} {now : ℕ} {mint : String}

/- The row of a token at a time, and the rows of a snapshot. -/
def rowOf (time : ℕ) (token : TokenMarketData α) : MetricsRow α :=
  { snapshotOf token with recordedAt := time }

def rowsOf (s : Sighting α) : List (MetricsRow α) :=
  (s.tokens.filter fun token => 0 < token.price).map (rowOf s.time)

/- Every snapshot is of different tokens that have a mint. -/
structure Mints (tokens : List (TokenMarketData α)) : Prop where
  keyed : (tokens.map TokenMarketData.mint).Nodup
  named : "" ∉ tokens.map TokenMarketData.mint

/- The table has the rows of the snapshots that arrived. -/
structure Recorded
    (feed : Feed α)
    (journal : List (Sighting α)) : Prop where
  tracked : Mints feed.tracked.tokens
  seen : ∀ s ∈ journal, Mints s.tokens
  times : journal.Pairwise fun a b => a.time < b.time
  table : feed.table = journal.flatMap rowsOf

theorem table_takeSnapshot
    (feed : Feed α)
    (now : ℕ) :
    (feed.takeSnapshot now true).table =
      feed.table ++ rowsOf ⟨now, feed.tracked.tokens⟩ := by
  have hRows :
      rowsOf ⟨now, feed.tracked.tokens⟩ =
        (snapshots feed.tracked.tokens).map fun s =>
          { s with recordedAt := now } := by
    rw [rowsOf, snapshots, List.map_map]
    rfl
  rw [hRows, Feed.takeSnapshot]
  split
  · rename_i hNone
    rw [hNone, List.map_nil, List.append_nil]
  · rename_i hSome
    rw [if_pos rfl]
    dsimp only
    unfold recordMetrics
    split
    · rename_i hNo
      cases hNo
    · rename_i hNo
      exact absurd (Option.some.inj hNo) hSome
    · rename_i hBatch
      rw [← Option.some.inj hBatch, Option.getD_some]

theorem tracked_takeSnapshot
    (feed : Feed α)
    (now : ℕ)
    (arrives : Bool) :
    (feed.takeSnapshot now arrives).tracked = feed.tracked := by
  unfold Feed.takeSnapshot
  split
  · rfl
  · split
    · rfl
    · rfl

theorem takeSnapshot_false
    (feed : Feed α)
    (now : ℕ) :
    feed.takeSnapshot now false = feed := by
  unfold Feed.takeSnapshot
  split
  · rfl
  · rfl

theorem mint_of_parse
    {u : StreamUpdate α}
    (hParse : parseUpdate u = some token) :
    token.mint ≠ "" := by
  have hValid : isValidMint token.mint = true := by
    unfold parseUpdate at hParse
    dsimp only at hParse
    split at hParse
    · cases hParse
    · split at hParse
      · cases hParse
      · rename_i hValid
        cases hParse
        exact Bool.not_eq_false _ ▸ hValid
  intro hEmpty
  rw [hEmpty] at hValid
  revert hValid
  decide

/- An event of the stream brings no token without a mint. -/
theorem mints_onTokenEvent
    {dict : TokenDict α}
    (hMints : Mints dict.tokens)
    (hToken : token.mint ≠ "") :
    Mints (dict.onTokenEvent token).tokens := by
  refine ⟨(dict.onTokenEvent token).keyed, ?_⟩
  unfold TokenDict.onTokenEvent
  split
  · split
    · dsimp only
      rw [TokenDict.mints_recordIn]
      exact hMints.named
    · exact hMints.named
  · dsimp only
    rw [List.map_append, List.mem_append]
    rintro (hOld | hNew)
    · exact hMints.named hOld
    · exact hToken (List.mem_singleton.mp hNew).symm

omit [PyFloat α] in
theorem mints_mock
    {tokens : List (TokenMarketData α)}
    (hMock : tokens.map TokenMarketData.mint = mockMints) :
    Mints tokens := by
  constructor
  · rw [hMock]
    decide
  · rw [hMock]
    decide

theorem recorded_step
    {e : FeedEvent α}
    {feed' : Feed α}
    (hRecorded : Recorded feed journal)
    (hForward : Forward (feed, journal) e)
    (hStep : feed.step e = some feed') :
    Recorded feed' (note feed e journal) := by
  cases e with
  | update u =>
    rw [Feed.step] at hStep
    split at hStep
    · cases hStep
      exact hRecorded
    · rename_i token hParse
      cases hStep
      exact ⟨mints_onTokenEvent hRecorded.tracked (mint_of_parse hParse),
        hRecorded.seen, hRecorded.times, hRecorded.table⟩
  | seed tokens =>
    rw [Feed.step] at hStep
    split at hStep
    · rename_i hSeed
      cases hStep
      exact ⟨mints_mock hSeed.2, hRecorded.seen, hRecorded.times,
        hRecorded.table⟩
    · cases hStep
  | start =>
    cases hStep
    exact ⟨⟨List.nodup_nil, List.not_mem_nil⟩, hRecorded.seen,
      hRecorded.times, hRecorded.table⟩
  | snapshot now arrives =>
    cases hStep
    cases arrives with
    | false =>
      rw [takeSnapshot_false]
      exact hRecorded
    | true =>
      refine ⟨?_, ?_, ?_, ?_⟩
      · rw [tracked_takeSnapshot]
        exact hRecorded.tracked
      · intro s hMem
        rcases List.mem_append.mp hMem with hOld | hNew
        · exact hRecorded.seen s hOld
        · rw [List.mem_singleton.mp hNew]
          exact hRecorded.tracked
      · apply List.pairwise_append.mpr
        refine ⟨hRecorded.times, List.pairwise_singleton _ _, ?_⟩
        intro s hOld s' hNew
        rw [List.mem_singleton.mp hNew]
        exact hForward s hOld
      · rw [table_takeSnapshot, hRecorded.table]
        exact (List.flatMap_append.trans (by simp)).symm

theorem recorded_of_exec
    {es : List (FeedEvent α)}
    (hForward : (watched α).Meets Forward (.empty, []) es)
    (hExec :
      (watched α).exec (.empty, []) es = some (feed, journal)) :
    Recorded feed journal := by
  apply Transition.exec_invariant
    (P := fun _ (p : Feed α × List (Sighting α)) => Recorded p.1 p.2)
    ?_ ?_ hForward hExec
  · exact ⟨⟨List.nodup_nil, List.not_mem_nil⟩,
      fun s hMem => absurd hMem List.not_mem_nil, List.Pairwise.nil, rfl⟩
  · intro _ p e p' _ hRecorded hNow hStep
    rcases Transition.watch_step.mp hStep with ⟨hFeed, hNote⟩
    rw [← hNote]
    exact recorded_step hRecorded hNow hFeed

end Recorded

------------------------------------------------------------
-- What Is Found
------------------------------------------------------------

section Found

variable {journal : List (Sighting α)} {s : Sighting α}
variable {tokens : List (TokenMarketData α)}
variable {q : MetricsQuery} {now : ℕ} {mint : String}

/- The sightings, and when they were. -/
def timedSightings
    (q : MetricsQuery)
    (now : ℕ)
    (journal : List (Sighting α))
    (mint : String) : List (ℕ × TokenMarketData α) :=
  if q.asksFor mint then
    (journal.filter fun s => q.cutoff now ≤ s.time).filterMap fun s =>
      (priced mint s).map fun token => (s.time, token)
  else
    []

theorem snd_timedSightings :
    (timedSightings q now journal mint).map Prod.snd =
      sightings q now journal mint := by
  unfold timedSightings sightings
  split
  · rw [List.map_filterMap]
    congr 1
    funext s
    cases priced mint s with
    | none => rfl
    | some token => rfl
  · rfl

/- A snapshot has at most one row of a mint. -/
theorem filter_mint_rowsOf
    (time : ℕ)
    (hKeyed : (tokens.map TokenMarketData.mint).Nodup) :
    (rowsOf ⟨time, tokens⟩).filter (fun row => row.mint = mint) =
      ((priced mint ⟨time, tokens⟩).map (rowOf time)).toList := by
  have hMint (token : TokenMarketData α) :
      (rowOf time token).mint = token.mint := rfl
  induction tokens with
  | nil => rfl
  | cons token tokens ih =>
    rw [List.map_cons, List.nodup_cons] at hKeyed
    have hRest := ih hKeyed.2
    simp only [rowsOf, priced] at hRest ⊢
    by_cases hSame : token.mint = mint
    · have hNone :
          tokens.find? (fun token => token.mint = mint) = none := by
        apply List.find?_eq_none.mpr
        intro other hMem hOther
        have hAlso : other.mint = mint := of_decide_eq_true hOther
        exact hKeyed.1 (List.mem_map.mpr
          ⟨other, hMem, hAlso.trans hSame.symm⟩)
      rw [hNone] at hRest
      by_cases hPrice : 0 < token.price
      · simp [hSame, hPrice, hMint, hRest, Option.filter]
      · simp [hSame, hPrice, hRest, Option.filter]
    · by_cases hPrice : 0 < token.price
      · simp [hSame, hPrice, hMint, hRest]
      · simp [hSame, hPrice, hRest]

/- Of the rows of a snapshot, those that are found. -/
theorem filter_rowsOf
    (hKeyed : (s.tokens.map TokenMarketData.mint).Nodup) :
    (rowsOf s).filter
        (fun row => decide (row.mint = mint) && q.wanted now row) =
      if q.asksFor mint ∧ q.cutoff now ≤ s.time then
        ((priced mint s).map (rowOf s.time)).toList
      else
        [] := by
  have hSwap :
      (rowsOf s).filter
          (fun row => decide (row.mint = mint) && q.wanted now row) =
        ((rowsOf s).filter fun row => row.mint = mint).filter
          (q.wanted now) := by
    rw [List.filter_filter]
    congr 1
    funext row
    exact Bool.and_comm _ _
  rw [hSwap, filter_mint_rowsOf s.time hKeyed]
  cases hPriced : priced mint s with
  | none => simp
  | some token =>
    have hMint : token.mint = mint := by
      have hFound := (Option.filter_eq_some_iff.mp hPriced).1
      have hSame := List.find?_some hFound
      exact of_decide_eq_true hSame
    have hWanted :
        q.wanted now (rowOf s.time token) = true ↔
          q.asksFor mint = true ∧ q.cutoff now ≤ s.time := by
      rw [MetricsQuery.wanted, Bool.and_eq_true, decide_eq_true_iff,
        and_comm]
      exact hMint ▸ Iff.rfl
    simp only [Option.map_some, Option.toList_some,
      List.filter_cons, List.filter_nil, hWanted]

theorem filter_table
    (hSeen : ∀ s ∈ journal, Mints s.tokens) :
    ((journal.flatMap rowsOf).filter (q.wanted now)).filter
        (fun row => row.mint = mint) =
      (timedSightings q now journal mint).map fun p =>
        rowOf p.1 p.2 := by
  rw [List.filter_filter]
  induction journal with
  | nil => simp [timedSightings]
  | cons s journal ih =>
    have hFirst := (hSeen s List.mem_cons_self).keyed
    have hRest := ih fun s hMem => hSeen s (List.mem_cons_of_mem _ hMem)
    rw [List.flatMap_cons, List.filter_append, hRest,
      filter_rowsOf hFirst]
    by_cases hAsks : q.asksFor mint
    · by_cases hSince : q.cutoff now ≤ s.time
      · cases hPriced : priced mint s with
        | none => simp [timedSightings, hAsks, hSince, hPriced]
        | some token => simp [timedSightings, hAsks, hSince, hPriced]
      · simp [timedSightings, hAsks, hSince]
    · simp [timedSightings, hAsks]

/- The rows of a token are of different times, in order. -/
theorem pairwise_timedSightings
    (hTimes : journal.Pairwise fun a b => a.time < b.time) :
    (timedSightings q now journal mint).Pairwise fun a b =>
      a.1 < b.1 := by
  unfold timedSightings
  split
  · apply List.Pairwise.filterMap _ ?_ (hTimes.filter _)
    intro a b hLt p hFirst p' hThen
    rcases Option.map_eq_some_iff.mp hFirst with ⟨token, _, rfl⟩
    rcases Option.map_eq_some_iff.mp hThen with ⟨token', _, rfl⟩
    exact hLt
  · exact List.Pairwise.nil

/- What an answer has of a token, read backwards. -/
theorem answer_mint
    {feed : Feed α}
    {answer : List (MetricsRow α)}
    (hRecorded : Recorded feed journal)
    (hAnswer : Answers feed.table q now answer)
    (mint : String) :
    ∃ kept : List (ℕ × TokenMarketData α),
      kept.IsSuffix (timedSightings q now journal mint) ∧
        answer.reverse.filter (fun row => row.mint = mint) =
          kept.map (fun p => rowOf p.1 p.2) ∧
        ((feed.table.filter (q.wanted now)).length ≤ q.clampedLimit →
          kept = timedSightings q now journal mint) := by
  rw [Answers, hRecorded.table] at hAnswer
  rw [hRecorded.table]
  let found := timedSightings q now journal mint
  have hFound :
      ((journal.flatMap rowsOf).filter (q.wanted now)).filter
          (fun row => row.mint = mint) =
        found.map fun p => rowOf p.1 p.2 :=
    filter_table hRecorded.seen
  have hLt :
      (found.map fun p => rowOf p.1 p.2).Pairwise fun a b =>
        a.recordedAt < b.recordedAt :=
    List.pairwise_map.mpr (pairwise_timedSightings hRecorded.times)
  have hDistinct :
      Newest.Distinct MetricsRow.recordedAt
        (((journal.flatMap rowsOf).filter (q.wanted now)).filter
          fun row => row.mint = mint) := by
    rw [hFound]
    exact hLt.imp fun h => Nat.ne_of_lt h
  have hInOrder :
      found.map (fun p => rowOf p.1 p.2) =
        Newest.byTime MetricsRow.recordedAt
          (((journal.flatMap rowsOf).filter (q.wanted now)).filter
            fun row => row.mint = mint) :=
    Newest.eq_byTime (hFound ▸ List.Perm.refl _)
      (hLt.imp fun h => Nat.le_of_lt h) hDistinct
  have hSuffix := hAnswer.filter_suffix hDistinct
  rw [← hInOrder, List.suffix_iff_eq_drop, ← List.map_drop] at hSuffix
  refine ⟨_, List.drop_suffix _ _, hSuffix, ?_⟩
  intro hRoom
  have hAll := hAnswer.filter_eq hDistinct hRoom
  rw [← hInOrder] at hAll
  rw [hAll, List.length_map, Nat.sub_self, List.drop_zero]

end Found

------------------------------------------------------------
-- What Is Replayed
------------------------------------------------------------

section Replayed

variable {rows : List (MetricsRow α)} {series : Series α}
variable {row : MetricsRow α} {mint key : String} {price : α}

omit [PyFloat α] in
theorem lookup_appendPrice
    (prices : List (String × List α)) :
    ((appendPrice key price prices).lookup mint).getD [] =
      (prices.lookup mint).getD [] ++
        if key = mint then [price] else [] := by
  induction prices with
  | nil =>
    by_cases hKey : key = mint
    · simp [appendPrice, hKey]
    · have hNot : (mint == key) = false := beq_false_of_ne (Ne.symm hKey)
      simp [appendPrice, hKey, List.lookup_cons, hNot]
  | cons entry prices ih =>
    rcases entry with ⟨m, past⟩
    rw [appendPrice]
    by_cases hFirst : m = key
    · by_cases hKey : key = mint
      · simp [hFirst, hKey]
      · have hNot : (mint == key) = false :=
          beq_false_of_ne (Ne.symm hKey)
        simp [hFirst, hKey, List.lookup_cons, hNot]
    · rw [if_neg hFirst, List.lookup_cons, List.lookup_cons]
      by_cases hMint : mint = m
      · have hKey : ¬key = mint := fun hSame =>
          hFirst (hMint.symm.trans hSame.symm)
        simp [hMint, Ne.symm hFirst]
      · have hNot : (mint == m) = false := beq_false_of_ne hMint
        simp only [hNot]
        exact ih

/- A row with a mint and a price counts. -/
structure Usable (row : MetricsRow α) : Prop where
  named : row.mint ≠ ""
  priced : 0 < row.price

/- What is known of a token by a row. -/
def metaOfRow (row : MetricsRow α) : Meta α where
  liquiditySol := orElse row.liquiditySol 0
  bondingCurveProgress := orElse row.bondingCurveProgress (50 : ℕ)

theorem metaOfRow_rowOf
    (time : ℕ)
    (token : TokenMarketData α) :
    metaOfRow (rowOf time token) = metaOf token := by
  have hLiquidity :
      orElse (some token.liquiditySol) 0 = token.liquiditySol := by
    change (if token.liquiditySol = 0 then 0 else token.liquiditySol) = _
    split
    · rename_i hZero
      exact hZero.symm
    · rfl
  exact congrArg
    (Meta.mk · (orElse (some token.bondingCurveProgress) (50 : ℕ)))
    hLiquidity

theorem prices_addRow
    (hUsable : Usable row) :
    (addRow series (readRow row)).prices =
      appendPrice row.mint row.price series.prices := by
  rw [addRow, readRow]
  dsimp only
  rw [if_pos ⟨hUsable.named, hUsable.priced⟩]

theorem lookup_metadata_addRow
    (hUsable : Usable row) :
    (addRow series (readRow row)).metadata.lookup mint =
      (series.metadata.lookup mint).or
        (if row.mint = mint then some (metaOfRow row) else none) := by
  rw [addRow, readRow]
  dsimp only
  rw [if_pos ⟨hUsable.named, hUsable.priced⟩]
  by_cases hMint : row.mint = mint
  · rw [if_pos hMint, hMint]
    cases hKnown : series.metadata.lookup mint with
    | none => simp [List.lookup_append, hKnown, metaOfRow]
    | some known => simp [hKnown]
  · rw [if_neg hMint, Option.or_none]
    split
    · rfl
    · have hNot : (mint == row.mint) = false :=
        beq_false_of_ne (Ne.symm hMint)
      simp [List.lookup_append, List.lookup_cons, hNot]

/- The rows of a mint, read one after the other. -/
theorem lookup_prices_addRows
    (hUsable : ∀ row ∈ rows, Usable row) :
    (((rows.map readRow).foldl addRow series).prices.lookup mint).getD
        [] =
      (series.prices.lookup mint).getD [] ++
        (rows.filter fun row => row.mint = mint).map
          fun row => row.price := by
  induction rows generalizing series with
  | nil => simp
  | cons row rows ih =>
    have hRest := @ih (addRow series (readRow row))
      fun row hMem => hUsable row (List.mem_cons_of_mem _ hMem)
    rw [List.map_cons, List.foldl_cons, hRest,
      prices_addRow (hUsable row List.mem_cons_self),
      lookup_appendPrice]
    by_cases hMint : row.mint = mint
    · simp [hMint]
    · simp [hMint]

theorem lookup_metadata_addRows
    (hUsable : ∀ row ∈ rows, Usable row) :
    ((rows.map readRow).foldl addRow series).metadata.lookup mint =
      (series.metadata.lookup mint).or
        ((rows.filter fun row => row.mint = mint).head?.map
          metaOfRow) := by
  induction rows generalizing series with
  | nil => simp
  | cons row rows ih =>
    have hRest := @ih (addRow series (readRow row))
      fun row hMem => hUsable row (List.mem_cons_of_mem _ hMem)
    rw [List.map_cons, List.foldl_cons, hRest,
      lookup_metadata_addRow (hUsable row List.mem_cons_self)]
    by_cases hMint : row.mint = mint
    · cases hKnown : series.metadata.lookup mint with
      | none => simp [hMint]
      | some known => simp [hMint]
    · simp [hMint]

omit [PyFloat α] in
theorem lookup_filter_fst
    (p : String → Bool)
    (prices : List (String × List α)) :
    (prices.filter fun entry => p entry.1).lookup mint =
      if p mint then prices.lookup mint else none := by
  induction prices with
  | nil => simp
  | cons entry prices ih =>
    rcases entry with ⟨m, history⟩
    rw [List.filter_cons, List.lookup_cons]
    by_cases hMint : mint = m
    · subst hMint
      by_cases hKeep : p mint
      · simp [hKeep]
      · simp [hKeep, ih]
    · have hNot : (mint == m) = false := beq_false_of_ne hMint
      by_cases hKeep : p m
      · simp [hKeep, List.lookup_cons, hNot, ih]
      · simp [hKeep, hNot, ih]

/- All rows of the table are usable. -/
theorem usable_of_recorded
    {feed : Feed α}
    {journal : List (Sighting α)}
    (hRecorded : Recorded feed journal)
    (hMem : row ∈ feed.table) :
    Usable row := by
  rw [hRecorded.table, List.mem_flatMap] at hMem
  rcases hMem with ⟨s, hSeen, hRow⟩
  rcases List.mem_map.mp hRow with ⟨token, hToken, rfl⟩
  rcases List.mem_filter.mp hToken with ⟨hTracked, hPrice⟩
  refine ⟨?_, of_decide_eq_true hPrice⟩
  intro hEmpty
  apply (hRecorded.seen s hSeen).named
  exact List.mem_map.mpr ⟨token, hTracked, hEmpty⟩

theorem prices_ne_nil
    (hUsable : ∀ row ∈ rows, Usable row)
    (hSome : rows ≠ []) :
    ((rows.map readRow).foldl addRow ⟨[], []⟩).prices ≠ [] := by
  rcases List.exists_cons_of_ne_nil hSome with ⟨row, rest, hRows⟩
  intro hNone
  have hLookup :=
    @lookup_prices_addRows α _ rows ⟨[], []⟩ row.mint hUsable
  rw [hNone, hRows] at hLookup
  simp at hLookup

/- The series that is replayed is that of the rows. -/
theorem lookup_priceSeries
    {readMints : List String → List String}
    {body : BacktestRequest α}
    (engine : Backtest.Engine α)
    (hUsable : ∀ row ∈ rows, Usable row)
    (hSome : rows ≠ [])
    (hRead :
      (metricsQuery readMints body).mints =
        (body.tokenMints.getD []).take 10)
    (hAsked :
      ∀ row ∈ rows,
        (metricsQuery readMints body).asksFor row.mint = true) :
    let series := priceSeries engine (some (rows.map readRow)) body
    (series.prices.lookup mint).getD [] =
        (rows.reverse.filter fun row => row.mint = mint).map
          (fun row => row.price) ∧
      series.metadata.lookup mint =
        (rows.reverse.filter fun row => row.mint = mint).head?.map
          metaOfRow := by
  have hReversed : ∀ row ∈ rows.reverse, Usable row := fun row hMem =>
    hUsable row (List.mem_reverse.mp hMem)
  let fetched : Series α :=
    (rows.reverse.map readRow).foldl addRow ⟨[], []⟩
  have hNonempty : fetched.prices ≠ [] :=
    prices_ne_nil hReversed (mt List.reverse_eq_nil_iff.mp hSome)
  have hPrices :
      (fetched.prices.lookup mint).getD [] =
        (rows.reverse.filter fun row => row.mint = mint).map
          fun row => row.price :=
    lookup_prices_addRows hReversed
  have hMetadata :
      fetched.metadata.lookup mint =
        (rows.reverse.filter fun row => row.mint = mint).head?.map
          metaOfRow :=
    lookup_metadata_addRows hReversed
  dsimp only
  rw [priceSeries, Option.getD_some, ← List.map_reverse,
    if_neg hNonempty]
  split
  · rename_i first mints hMints
    refine ⟨?_, hMetadata⟩
    rw [lookup_filter_fst fun m => m ∈ first :: mints]
    by_cases hMint : mint ∈ first :: mints
    · rw [if_pos (decide_eq_true hMint)]
      exact hPrices
    · have hNone :
          rows.reverse.filter (fun row => row.mint = mint) = [] := by
        apply List.filter_eq_nil_iff.mpr
        intro row hMem hSame
        have hAsks := hAsked row (List.mem_reverse.mp hMem)
        rw [of_decide_eq_true hSame] at hAsks
        rcases MetricsQuery.asksFor_iff.mp hAsks with hAll | hListed
        · rw [hRead, hMints] at hAll
          cases hAll
        · rw [hRead, hMints] at hListed
          exact hMint (List.mem_of_mem_take hListed)
      rw [if_neg (by simpa using hMint), hNone]
      rfl
  · exact ⟨hPrices, hMetadata⟩

/-
  Of all runs of the feed, and all answers to what a backtest asks
  for, some of which is there.
-/
theorem replays_of_exec
    (es : List (FeedEvent α))
    (feed : Feed α)
    (journal : List (Sighting α))
    (hForward : (watched α).Meets Forward (.empty, []) es)
    (hExec : (watched α).exec (.empty, []) es = some (feed, journal))
    (engine : Backtest.Engine α)
    (readMints : List String → List String)
    (hReads : ReadsPlain readMints)
    (body : BacktestRequest α)
    (hPlain : ∀ m ∈ body.tokenMints.getD [], plain m = true)
    (now : ℕ)
    (answer : List (MetricsRow α))
    (hAnswer :
      Answers feed.table (metricsQuery readMints body) now answer)
    (hSome : answer ≠ [])
    (mint : String) :
    ∃ kept : List (TokenMarketData α),
      Replays feed.table (metricsQuery readMints body) now
        (sightings (metricsQuery readMints body) now journal mint) kept
        ((priceSeries engine (some (answer.map readRow))
          body).prices.lookup mint)
        ((priceSeries engine (some (answer.map readRow))
          body).metadata.lookup mint) := by
  have hRecorded := recorded_of_exec hForward hExec
  have hRead :
      (metricsQuery readMints body).mints =
        (body.tokenMints.getD []).take 10 :=
    hReads _ fun m hMem => hPlain m (List.mem_of_mem_take hMem)
  have hRows : ∀ row ∈ answer,
      row ∈ feed.table ∧
        (metricsQuery readMints body).wanted now row = true :=
    fun row hMem => List.mem_filter.mp (hAnswer.subset hMem)
  have hUsable : ∀ row ∈ answer, Usable row := fun row hMem =>
    usable_of_recorded hRecorded (hRows row hMem).1
  have hAsked :
      ∀ row ∈ answer,
        (metricsQuery readMints body).asksFor row.mint = true := by
    intro row hMem
    have hWanted := (hRows row hMem).2
    rw [MetricsQuery.wanted, Bool.and_eq_true] at hWanted
    exact hWanted.2
  rcases @lookup_priceSeries α _ answer mint readMints body engine
    hUsable hSome hRead hAsked with ⟨hPrices, hKnown⟩
  rcases answer_mint hRecorded hAnswer mint with
    ⟨kept, hSuffix, hFound, hComplete⟩
  rw [hFound] at hPrices hKnown
  refine ⟨kept.map Prod.snd, ?_, ?_, ?_, ?_⟩
  · rw [← snd_timedSightings]
    exact hSuffix.map _
  · rw [hPrices, List.map_map, List.map_map]
    rfl
  · rw [hKnown, List.head?_map, List.head?_map, Option.map_map,
      Option.map_map]
    congr 1
    funext p
    exact metaOfRow_rowOf p.1 p.2
  · intro hRoom
    rw [hComplete hRoom, snd_timedSightings]

end Replayed

end Model

/- The second snapshot is lost, and the service starts again. -/
def interrupted : List (FeedEvent ℚ) :=
  [.update (pendingAt 1), .snapshot 60000000 true,
    .update (pendingAt 2), .snapshot 120000000 false, .start,
    .update (pendingAt 3), .snapshot 190000000 true]

def streamedMint : String :=
  "So11111111111111111111111111111111111111112"

/- A backtest of the last day, on the token of the stream. -/
def lastDay : BacktestRequest ℚ where
  strategyName := "momentum"
  tokenMints := some [streamedMint]
  days := 1
  initialSol := 10
  buyAmountSol := none
  stopLossPct := none
  takeProfitPct := none
  minLiquiditySol := none

/- All its rows of the last day, newest first. -/
def lastRows (feed : Feed ℚ) : List (MetricsRow ℚ) :=
  (feed.table.filter ((metricsQuery id lastDay).wanted 200000)).reverse

/- Its progress is zero in the rows, and 50 in the backtest. -/
theorem replays_interrupted :
    ∃ (feed : Feed ℚ) (journal : List (Sighting ℚ))
      (kept : List (TokenMarketData ℚ)),
      (lastRows feed).map (fun row => row.price) = [3, 1] ∧
        (lastRows feed).map (fun row => row.bondingCurveProgress) =
          [some 0, some 0] ∧
        ((priceSeries ⟨[], []⟩ (some ((lastRows feed).map readRow))
            lastDay).metadata.lookup streamedMint).map
          Meta.bondingCurveProgress = some 50 ∧
        Replays feed.table (metricsQuery id lastDay) 200000
          (sightings (metricsQuery id lastDay) 200000 journal
            streamedMint) kept
          ((priceSeries ⟨[], []⟩ (some ((lastRows feed).map readRow))
            lastDay).prices.lookup streamedMint)
          ((priceSeries ⟨[], []⟩ (some ((lastRows feed).map readRow))
            lastDay).metadata.lookup streamedMint) := by
  have hAny :=
    Transition.exists_exec_of_any (watched ℚ) (.empty, []) interrupted
      (fun p =>
        decide ((lastRows p.1).map (fun row => row.price) = [3, 1] ∧
          (lastRows p.1).map (fun row => row.bondingCurveProgress) =
            [some 0, some 0] ∧
          ((priceSeries ⟨[], []⟩ (some ((lastRows p.1).map readRow))
              lastDay).metadata.lookup streamedMint).map
            Meta.bondingCurveProgress = some 50 ∧
          (lastRows p.1).Pairwise fun a b =>
            b.recordedAt ≤ a.recordedAt))
      (by decide +kernel)
  rcases hAny with ⟨⟨feed, journal⟩, hExec, hShown⟩
  rcases of_decide_eq_true hShown with
    ⟨hPrices, hProgress, hKnown, hNewest⟩
  have hForward :
      (watched ℚ).Meets Forward (.empty, []) interrupted := by
    apply Transition.meets_of_check
    decide +kernel
  have hLength : (lastRows feed).length = 2 := by
    have hSame := congrArg List.length hPrices
    rwa [List.length_map] at hSame
  have hAnswer :
      Answers feed.table (metricsQuery id lastDay) 200000
        (lastRows feed) := by
    refine ⟨lastRows feed, List.reverse_perm _, hNewest, ?_⟩
    rw [List.take_of_length_le]
    rw [hLength]
    decide
  have hSome : lastRows feed ≠ [] := by
    intro hNone
    rw [hNone] at hLength
    cases hLength
  have hPlain : ∀ m ∈ lastDay.tokenMints.getD [], plain m = true := by
    decide
  rcases replays_of_exec interrupted feed journal hForward hExec
    ⟨[], []⟩ id (fun _ _ => rfl) lastDay hPlain 200000 (lastRows feed)
    hAnswer hSome streamedMint with ⟨kept, hReplays⟩
  exact ⟨feed, journal, kept, hPrices, hProgress, hKnown, hReplays⟩

end Snapshots

end Pumpy
