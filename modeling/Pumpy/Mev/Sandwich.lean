import Pumpy.Mev.Mempool

/-
  The detector of sandwich attacks
  (rust-engine/src/mev/sandwich.rs).  It asks the monitor for
  the transactions of the last two seconds, and for those that
  touch the accounts; only the latter count.

  Key definitions include:
    * `SandwichDetector.analyzeRisk`
    * `detectorRuns`
    * `DependsOnRecent`
    * `IgnoresStale`

  The main results are `dependsOnRecent_iff`: two detectors with
  the same recent traffic come to the same analysis exactly if
  the older traffic makes no difference; and `ignoresStale_iff`:
  it can make none exactly if there is no room for it.
-/

------------------------------------------------------------
-- The Detector
------------------------------------------------------------

namespace Pumpy

namespace Mev

open Interleaving

inductive RiskLevel where
  | low | medium | high | critical
deriving DecidableEq, Repr

structure SandwichRiskAnalysis where
  score : UInt32
  riskLevel : RiskLevel
  suspiciousTxs : List String
  reason : String
deriving DecidableEq

structure CachedAnalysis where
  analysis : SandwichRiskAnalysis
  cachedAt : Instant
deriving DecidableEq

structure SandwichDetector where
  mempoolMonitor : MempoolMonitor
  analysisCache : String → Option CachedAnalysis
  cacheTtl : ℕ
  riskThreshold : UInt32

/- The readings of the clock that one analysis takes. -/
structure Clock where
  checkedAt : Instant
  readAt : Instant
  cachedAt : Instant

/- The level of a score. -/
def riskLevel (score : UInt32) : RiskLevel :=
  if score ≤ 25 then .low
  else if score ≤ 50 then .medium
  else if score ≤ 75 then .high
  else .critical

/- The analysis of the transactions that touch the accounts. -/
def analyzeTargeting
    (targeting : List TransactionInfo) : SandwichRiskAnalysis :=
  let count := targeting.length
  let score : UInt32 := 0
  let (score, suspiciousTxs, reasons) :=
    if 2 < count then
      (score + 30, targeting.map TransactionInfo.signature,
        [toString count ++ " pending txs targeting same accounts"])
    else
      (score, [], [])
  let (score, reasons) :=
    if 5 < count then
      (score + 40, reasons ++ ["High frequency targeting detected"])
    else
      (score, reasons)
  { score := score
    riskLevel := riskLevel score
    suspiciousTxs := suspiciousTxs
    reason := String.intercalate "; " reasons }

namespace SandwichDetector

def new
    (mempoolMonitor : MempoolMonitor)
    (riskThreshold : UInt32) : SandwichDetector where
  mempoolMonitor := mempoolMonitor
  analysisCache := fun _ => none
  cacheTtl := fromSecs 5
  riskThreshold := riskThreshold

/- The cached analysis of a mint, if it is younger than the TTL. -/
def cached
    (d : SandwichDetector)
    (mint : String)
    (now : Instant) : Option SandwichRiskAnalysis :=
  match d.analysisCache mint with
  | some entry =>
      if durationSince now entry.cachedAt < d.cacheTtl then
        some entry.analysis
      else
        none
  | none => none

/- `analyze_risk(mint, accounts)`. -/
def analyzeRisk
    (d : SandwichDetector)
    (mint : String)
    (accounts : List String)
    (clock : Clock) : SandwichRiskAnalysis × SandwichDetector :=
  match d.cached mint clock.checkedAt with
  | some analysis => (analysis, d)
  | none =>
      -- The recent transactions are fetched, and not looked at.
      let _recentTxs :=
        d.mempoolMonitor.getRecentTransactions clock.readAt (fromSecs 2)
      let targeting := d.mempoolMonitor.findTargetingAccounts accounts
      let analysis := analyzeTargeting targeting
      (analysis,
        { d with
          analysisCache :=
            Function.update d.analysisCache mint
              (some ⟨analysis, clock.cachedAt⟩) })

/- `prune_cache()`. -/
def pruneCache
    (d : SandwichDetector)
    (now : Instant) : SandwichDetector :=
  { d with
    analysisCache := fun mint =>
      (d.analysisCache mint).filter fun entry =>
        durationSince now entry.cachedAt < d.cacheTtl * 10 }

end SandwichDetector

/- What is done with a detector and its monitor. -/
inductive DetectorEvent where
  | addTransaction (tx : TransactionInfo) : DetectorEvent
  | pruneOldEntries (now : Instant) (maxAge : ℕ) : DetectorEvent
  | analyzeRisk
      (mint : String)
      (accounts : List String)
      (clock : Clock) : DetectorEvent
  | pruneCache (now : Instant) : DetectorEvent

def SandwichDetector.handle
    (d : SandwichDetector) : DetectorEvent → SandwichDetector
  | .addTransaction tx =>
      { d with mempoolMonitor := d.mempoolMonitor.addTransaction tx }
  | .pruneOldEntries now maxAge =>
      { d with
        mempoolMonitor := d.mempoolMonitor.pruneOldEntries now maxAge }
  | .analyzeRisk mint accounts clock =>
      (d.analyzeRisk mint accounts clock).2
  | .pruneCache now => d.pruneCache now

def detectorRuns : Transition DetectorEvent SandwichDetector where
  step d e := some (d.handle e)

/- The states of a detector of so many entries and this threshold. -/
def Reached
    (maxCacheSize : ℕ)
    (riskThreshold : UInt32)
    (d : SandwichDetector) : Prop :=
  detectorRuns.Reaches (.new (.new maxCacheSize) riskThreshold) d

------------------------------------------------------------
-- One Analysis
------------------------------------------------------------

section Analysis

variable {d : SandwichDetector} {mint : String}
variable {accounts : List String} {clock : Clock}

/- Without a cached analysis, it is that of all that touches. -/
theorem analyzeRisk_uncached
    (hUncached : d.cached mint clock.checkedAt = none) :
    (d.analyzeRisk mint accounts clock).1 =
      analyzeTargeting
        (d.mempoolMonitor.findTargetingAccounts accounts) := by
  unfold SandwichDetector.analyzeRisk
  rw [hUncached]

/- More than two transactions are all of them suspicious. -/
theorem analyzeTargeting_many
    {targeting : List TransactionInfo}
    (hMany : 2 < targeting.length) :
    (analyzeTargeting targeting).suspiciousTxs =
      targeting.map TransactionInfo.signature := by
  unfold analyzeTargeting
  dsimp only
  rw [if_pos hMany]

/- Two transactions, or fewer, are no attack. -/
theorem analyzeTargeting_few
    {targeting : List TransactionInfo}
    (hFew : targeting.length ≤ 2) :
    (analyzeTargeting targeting).score = 0 ∧
      (analyzeTargeting targeting).suspiciousTxs = [] := by
  have hTwo : ¬2 < targeting.length := not_lt.mpr hFew
  have hFive : ¬5 < targeting.length := by omega
  unfold analyzeTargeting
  dsimp only
  rw [if_neg hTwo, if_neg hFive]
  exact ⟨rfl, rfl⟩

end Analysis

------------------------------------------------------------
-- Reached States
------------------------------------------------------------

section Reach

variable {maxCacheSize : ℕ} {riskThreshold : UInt32}
variable {d : SandwichDetector}

theorem mempoolMonitor_analyzeRisk
    (mint : String)
    (accounts : List String)
    (clock : Clock) :
    (d.analyzeRisk mint accounts clock).2.mempoolMonitor =
      d.mempoolMonitor := by
  unfold SandwichDetector.analyzeRisk
  split <;> rfl

/- The monitor keeps its size, and its queue within it. -/
theorem Reached.bounded
    (hReached : Reached maxCacheSize riskThreshold d) :
    d.mempoolMonitor.maxCacheSize = maxCacheSize ∧
      d.mempoolMonitor.Bounded := by
  refine Transition.Reaches.invariant
    (P := fun d =>
      d.mempoolMonitor.maxCacheSize = maxCacheSize ∧
        d.mempoolMonitor.Bounded)
    hReached ⟨rfl, MempoolMonitor.bounded_new _⟩ ?_
  rintro d e _ ⟨hSize, hBounded⟩ ⟨⟩
  cases e with
  | addTransaction tx => exact ⟨hSize, hBounded.addTransaction⟩
  | pruneOldEntries now maxAge => exact ⟨hSize, hBounded.pruneOldEntries⟩
  | analyzeRisk mint accounts clock =>
      dsimp only [SandwichDetector.handle]
      rw [mempoolMonitor_analyzeRisk]
      exact ⟨hSize, hBounded⟩
  | pruneCache now => exact ⟨hSize, hBounded⟩

/- Transactions that fit are all there, once they are added. -/
theorem reached_adding
    {txs : List TransactionInfo}
    (riskThreshold : UInt32)
    (hFit : txs.length ≤ max maxCacheSize 1) :
    Reached maxCacheSize riskThreshold
      (.new ⟨txs, maxCacheSize⟩ riskThreshold) := by
  have hAdded :
      ∀ m : MempoolMonitor,
        detectorRuns.exec (.new m riskThreshold)
            (txs.map DetectorEvent.addTransaction) =
          some (.new (txs.foldl MempoolMonitor.addTransaction m)
            riskThreshold) := by
    clear hFit
    induction txs with
    | nil => exact fun _ => rfl
    | cons tx txs ih => exact fun m => ih _
  refine ⟨txs.map DetectorEvent.addTransaction, ?_⟩
  rw [hAdded, MempoolMonitor.pendingTransactions_foldl hFit]

end Reach

------------------------------------------------------------
-- Recent Traffic
------------------------------------------------------------

/- The same score, and the same suspicious transactions. -/
structure SameRisk (a b : SandwichRiskAnalysis) : Prop where
  score : a.score = b.score
  suspiciousTxs : a.suspiciousTxs = b.suspiciousTxs

/- The transactions of the last two seconds that touch the accounts. -/
def SandwichDetector.recentTraffic
    (d : SandwichDetector)
    (accounts : List String)
    (clock : Clock) : List TransactionInfo :=
  d.mempoolMonitor.recentTargeting accounts clock.readAt (fromSecs 2)

/- With the same recent traffic, two detectors find the same risk. -/
def DependsOnRecent
    (d d' : SandwichDetector)
    (mint : String)
    (accounts : List String)
    (clock clock' : Clock) : Prop :=
  d'.recentTraffic accounts clock' = d.recentTraffic accounts clock →
    SameRisk (d'.analyzeRisk mint accounts clock').1
      (d.analyzeRisk mint accounts clock).1

/-
  Of the transactions that touch the accounts, whatever their
  age, both monitors hold the same ones, or neither holds more
  than two.
-/
def SameTargeting
    (m m' : MempoolMonitor)
    (accounts : List String) : Prop :=
  ((m.findTargetingAccounts accounts).length ≤ 2 ∧
      (m'.findTargetingAccounts accounts).length ≤ 2) ∨
    (m'.findTargetingAccounts accounts).map TransactionInfo.signature =
      (m.findTargetingAccounts accounts).map TransactionInfo.signature

/- No transaction that touches the accounts is older. -/
def OnlyRecent
    (d : SandwichDetector)
    (accounts : List String)
    (clock : Clock) : Prop :=
  ∀ tx ∈ d.mempoolMonitor.findTargetingAccounts accounts,
    tx.recent clock.readAt (fromSecs 2) = true

/-
  Whatever happens to a detector with such a monitor, if it
  comes to the same recent traffic, and has no analysis cached,
  then it comes to the same analysis.
-/
def IgnoresStale
    (maxCacheSize : ℕ)
    (riskThreshold : UInt32)
    (d : SandwichDetector)
    (mint : String)
    (accounts : List String)
    (clock : Clock) : Prop :=
  ∀ d' clock',
    Reached maxCacheSize riskThreshold d' →
      d'.cached mint clock'.checkedAt = none →
        DependsOnRecent d d' mint accounts clock clock'

section Recent

variable {maxCacheSize : ℕ} {riskThreshold : UInt32}
variable {d d' : SandwichDetector} {mint : String}
variable {accounts : List String} {clock clock' : Clock}

/- Two small queues have nothing suspicious. -/
theorem sameRisk_of_few
    (hUncached : d.cached mint clock.checkedAt = none)
    (hUncached' : d'.cached mint clock'.checkedAt = none)
    (hFew :
      (d.mempoolMonitor.findTargetingAccounts accounts).length ≤ 2)
    (hFew' :
      (d'.mempoolMonitor.findTargetingAccounts accounts).length ≤ 2) :
    SameRisk (d'.analyzeRisk mint accounts clock').1
      (d.analyzeRisk mint accounts clock).1 := by
  rw [analyzeRisk_uncached hUncached, analyzeRisk_uncached hUncached']
  have hNone := analyzeTargeting_few hFew
  have hNone' := analyzeTargeting_few hFew'
  exact ⟨hNone'.1.trans hNone.1.symm, hNone'.2.trans hNone.2.symm⟩

/- The suspicious transactions say which there are, if many. -/
theorem sameTargeting_of_sameRisk
    (hUncached : d.cached mint clock.checkedAt = none)
    (hUncached' : d'.cached mint clock'.checkedAt = none)
    (hSame :
      SameRisk (d'.analyzeRisk mint accounts clock').1
        (d.analyzeRisk mint accounts clock).1) :
    SameTargeting d.mempoolMonitor d'.mempoolMonitor accounts := by
  have hTxs := hSame.suspiciousTxs
  rw [analyzeRisk_uncached hUncached, analyzeRisk_uncached hUncached']
    at hTxs
  by_cases hFew :
      (d.mempoolMonitor.findTargetingAccounts accounts).length ≤ 2
  · left
    refine ⟨hFew, not_lt.mp fun hMany' => ?_⟩
    rw [(analyzeTargeting_few hFew).2, analyzeTargeting_many hMany',
      List.map_eq_nil_iff] at hTxs
    rw [hTxs] at hMany'
    exact absurd hMany' (by decide)
  · right
    have hMany := not_le.mp hFew
    by_cases hFew' :
        (d'.mempoolMonitor.findTargetingAccounts accounts).length ≤ 2
    · rw [(analyzeTargeting_few hFew').2, analyzeTargeting_many hMany,
        eq_comm, List.map_eq_nil_iff] at hTxs
      rw [hTxs] at hMany
      exact absurd hMany (by decide)
    · rw [analyzeTargeting_many hMany,
        analyzeTargeting_many (not_le.mp hFew')] at hTxs
      exact hTxs

/- What an analysis says goes by the signatures. -/
theorem sameRisk_of_signatures
    {targeting targeting' : List TransactionInfo}
    (hSame :
      targeting'.map TransactionInfo.signature =
        targeting.map TransactionInfo.signature) :
    SameRisk (analyzeTargeting targeting')
      (analyzeTargeting targeting) := by
  have hLength : targeting'.length = targeting.length := by
    rw [← List.length_map TransactionInfo.signature, hSame,
      List.length_map]
  unfold analyzeTargeting
  rw [hLength, hSame]
  exact ⟨rfl, rfl⟩

/-
  The analyses of two detectors without a cached one depend on
  the recent traffic alone exactly if the older traffic makes no
  difference, where the recent traffic is the same.
-/
theorem dependsOnRecent_iff
    (hUncached : d.cached mint clock.checkedAt = none)
    (hUncached' : d'.cached mint clock'.checkedAt = none) :
    DependsOnRecent d d' mint accounts clock clock' ↔
      (d'.recentTraffic accounts clock' =
          d.recentTraffic accounts clock →
        SameTargeting d.mempoolMonitor d'.mempoolMonitor accounts) := by
  apply forall_congr'
  intro _
  constructor
  · exact sameTargeting_of_sameRisk hUncached hUncached'
  · rintro (⟨hFew, hFew'⟩ | hSame)
    · exact sameRisk_of_few hUncached hUncached' hFew hFew'
    · rw [analyzeRisk_uncached hUncached, analyzeRisk_uncached hUncached']
      exact sameRisk_of_signatures hSame

/- Where there is no older traffic, all there is, is recent. -/
theorem targeting_of_onlyRecent
    (hOnly : OnlyRecent d accounts clock) :
    d.mempoolMonitor.findTargetingAccounts accounts =
      d.recentTraffic accounts clock := by
  unfold SandwichDetector.recentTraffic MempoolMonitor.recentTargeting
    MempoolMonitor.getRecentTransactions
  rw [List.filter_comm]
  exact (List.filter_eq_self.mpr hOnly).symm

theorem sameTargeting_of_onlyRecent
    (hOnly : OnlyRecent d accounts clock)
    (hOnly' : OnlyRecent d' accounts clock')
    (hAgree :
      d'.recentTraffic accounts clock' =
        d.recentTraffic accounts clock) :
    SameTargeting d.mempoolMonitor d'.mempoolMonitor accounts := by
  right
  rw [targeting_of_onlyRecent hOnly, targeting_of_onlyRecent hOnly',
    hAgree]

------------------------------------------------------------
-- Stale Traffic
------------------------------------------------------------

/- An old transaction that touches the accounts. -/
def staleTransaction
    (signature : String)
    (accounts : List String)
    (clock : Clock) : TransactionInfo where
  signature := signature
  accounts := accounts
  programIds := []
  timestamp := clock.readAt - 3000000000

theorem not_recent_stale
    (signature : String)
    (accounts : List String)
    (clock : Clock) :
    (staleTransaction signature accounts clock).recent clock.readAt
      (fromSecs 2) = false := by
  have hAge :
      durationSince clock.readAt (clock.readAt - 3000000000) =
        3000000000 := by
    unfold durationSince
    omega
  unfold staleTransaction TransactionInfo.recent
  dsimp only
  rw [hAge]
  decide

theorem touches_stale
    (signature : String)
    (hSome : accounts ≠ []) :
    (staleTransaction signature accounts clock).touches accounts =
      true := by
  rcases List.exists_mem_of_ne_nil accounts hSome with ⟨a, hMem⟩
  unfold staleTransaction TransactionInfo.touches
  exact List.any_eq_true.mpr ⟨a, hMem, List.contains_iff_mem.mpr hMem⟩

/- The recent traffic, after so many old transactions. -/
def refilled
    (n : ℕ)
    (signature : String)
    (accounts : List String)
    (clock : Clock)
    (recent : List TransactionInfo) : List TransactionInfo :=
  List.replicate n (staleTransaction signature accounts clock) ++ recent

theorem mem_recentTraffic
    {tx : TransactionInfo}
    (hMem : tx ∈ d.recentTraffic accounts clock) :
    tx.recent clock.readAt (fromSecs 2) = true ∧
      tx.touches accounts = true := by
  unfold SandwichDetector.recentTraffic MempoolMonitor.recentTargeting
    MempoolMonitor.getRecentTransactions at hMem
  rw [List.mem_filter, List.mem_filter] at hMem
  exact ⟨hMem.1.2, hMem.2⟩

/- The old transactions are no recent traffic. -/
theorem recentTraffic_refilled
    (n : ℕ)
    (signature : String)
    (riskThreshold : UInt32) :
    (SandwichDetector.new
        ⟨refilled n signature accounts clock
            (d.recentTraffic accounts clock),
          maxCacheSize⟩
        riskThreshold).recentTraffic accounts clock =
      d.recentTraffic accounts clock := by
  have hOld := not_recent_stale signature accounts clock
  have hRecent :
      ∀ tx ∈ d.recentTraffic accounts clock,
        tx.recent clock.readAt (fromSecs 2) = true :=
    fun tx hMem => (mem_recentTraffic hMem).1
  have hTouch :
      ∀ tx ∈ d.recentTraffic accounts clock,
        tx.touches accounts = true :=
    fun tx hMem => (mem_recentTraffic hMem).2
  unfold refilled
  rw [SandwichDetector.recentTraffic, MempoolMonitor.recentTargeting,
    MempoolMonitor.getRecentTransactions]
  dsimp only [SandwichDetector.new]
  rw [List.filter_append, List.filter_replicate_of_neg (by simp [hOld]),
    List.nil_append, List.filter_eq_self.mpr hRecent,
    List.filter_eq_self.mpr hTouch]

/- But they are counted. -/
theorem findTargetingAccounts_refilled
    (n : ℕ)
    (signature : String)
    (hSome : accounts ≠ []) :
    MempoolMonitor.findTargetingAccounts
        ⟨refilled n signature accounts clock
            (d.recentTraffic accounts clock),
          maxCacheSize⟩
        accounts =
      refilled n signature accounts clock
        (d.recentTraffic accounts clock) := by
  unfold MempoolMonitor.findTargetingAccounts
  refine List.filter_eq_self.mpr fun tx hMem => ?_
  rcases List.mem_append.mp hMem with hOld | hRecent
  · rw [List.eq_of_mem_replicate hOld]
    exact touches_stale signature hSome
  · exact (mem_recentTraffic hRecent).2

/-
  Where old transactions fit into the queue, their signatures
  would be those of the analysis, whichever they are.
-/
theorem suspiciousTxs_of_ignoresStale
    {n : ℕ}
    (hIgnores :
      IgnoresStale maxCacheSize riskThreshold d mint accounts clock)
    (hSome : accounts ≠ [])
    (hFill :
      n + (d.recentTraffic accounts clock).length = maxCacheSize)
    (hMany : 2 < maxCacheSize)
    (signature : String) :
    (d.analyzeRisk mint accounts clock).1.suspiciousTxs =
      List.replicate n signature ++
        (d.recentTraffic accounts clock).map
          TransactionInfo.signature := by
  have hLength :
      (refilled n signature accounts clock
        (d.recentTraffic accounts clock)).length = maxCacheSize := by
    rw [refilled, List.length_append, List.length_replicate, hFill]
  have hReached :=
    reached_adding riskThreshold (hLength.le.trans (Nat.le_max_left _ 1))
  have hSame :=
    hIgnores _ clock hReached rfl
      (recentTraffic_refilled n signature riskThreshold)
  rw [← hSame.suspiciousTxs, analyzeRisk_uncached rfl]
  dsimp only [SandwichDetector.new]
  rw [findTargetingAccounts_refilled n signature hSome,
    analyzeTargeting_many (hMany.trans_eq hLength.symm), refilled,
    List.map_append, List.map_replicate]
  rfl

theorem length_recentTraffic_le
    (hBounded : d.mempoolMonitor.Bounded) :
    (d.recentTraffic accounts clock).length ≤
      max d.mempoolMonitor.maxCacheSize 1 :=
  MempoolMonitor.recentTargeting_sublist.length_le.trans
    (MempoolMonitor.length_findTargetingAccounts_le hBounded)

/- Old traffic that fits into the queue makes a difference. -/
theorem full_of_ignoresStale
    (hReached : Reached maxCacheSize riskThreshold d)
    (hIgnores :
      IgnoresStale maxCacheSize riskThreshold d mint accounts clock)
    (hSome : accounts ≠ [])
    (hMany : 2 < maxCacheSize) :
    (d.recentTraffic accounts clock).length = maxCacheSize := by
  rcases hReached.bounded with ⟨hSize, hBounded⟩
  have hLength : (d.recentTraffic accounts clock).length ≤ _ :=
    length_recentTraffic_le hBounded
  rw [hSize, Nat.max_eq_left (by omega)] at hLength
  have hFill := Nat.sub_add_cancel hLength
  have hOne :=
    suspiciousTxs_of_ignoresStale hIgnores hSome hFill hMany "a"
  have hOther :=
    suspiciousTxs_of_ignoresStale hIgnores hSome hFill hMany "b"
  rw [hOne] at hOther
  have hSame := List.append_cancel_right hOther
  rw [List.replicate_inj] at hSame
  rcases hSame.2 with hNone | hEq
  · omega
  · exact absurd hEq (by decide)

/- Without room for old traffic there is none. -/
theorem targeting_of_full
    (hReached : Reached maxCacheSize riskThreshold d)
    (hMany : 2 < maxCacheSize)
    (hFull : (d.recentTraffic accounts clock).length = maxCacheSize) :
    d.mempoolMonitor.findTargetingAccounts accounts =
      d.recentTraffic accounts clock := by
  rcases hReached.bounded with ⟨hSize, hBounded⟩
  apply MempoolMonitor.findTargetingAccounts_of_full hBounded
  rw [hSize, Nat.max_eq_left (by omega)]
  exact hFull.ge

theorem length_targeting_le
    (hReached : Reached maxCacheSize riskThreshold d)
    (hFew : accounts = [] ∨ maxCacheSize ≤ 2) :
    (d.mempoolMonitor.findTargetingAccounts accounts).length ≤ 2 := by
  rcases hFew with rfl | hSmall
  · rw [MempoolMonitor.findTargetingAccounts_nil]
    exact Nat.zero_le 2
  · rcases hReached.bounded with ⟨hSize, hBounded⟩
    have hLength :
        (d.mempoolMonitor.findTargetingAccounts accounts).length ≤ _ :=
      MempoolMonitor.length_findTargetingAccounts_le hBounded
    rw [hSize] at hLength
    omega

/-
  Older traffic makes no difference, whatever there is of it,
  exactly if no account is given, or the queue has at most two
  entries, or it is full of recent traffic.
-/
theorem ignoresStale_iff
    (hReached : Reached maxCacheSize riskThreshold d)
    (hUncached : d.cached mint clock.checkedAt = none) :
    IgnoresStale maxCacheSize riskThreshold d mint accounts clock ↔
      accounts = [] ∨ maxCacheSize ≤ 2 ∨
        (d.recentTraffic accounts clock).length = maxCacheSize := by
  constructor
  · intro hIgnores
    by_cases hSome : accounts = []
    · exact .inl hSome
    · by_cases hSmall : maxCacheSize ≤ 2
      · exact .inr (.inl hSmall)
      · exact .inr (.inr (full_of_ignoresStale hReached hIgnores
          hSome (not_le.mp hSmall)))
  · intro hRoom d' clock' hReached' hUncached' hAgree
    by_cases hFew : accounts = [] ∨ maxCacheSize ≤ 2
    · exact sameRisk_of_few hUncached hUncached'
        (length_targeting_le hReached hFew)
        (length_targeting_le hReached' hFew)
    · rw [← or_assoc] at hRoom
      have hFull := hRoom.resolve_left hFew
      have hFull' := hFull
      rw [← hAgree] at hFull'
      have hMany : 2 < maxCacheSize :=
        not_le.mp fun hSmall => hFew (.inr hSmall)
      rw [analyzeRisk_uncached hUncached, analyzeRisk_uncached hUncached',
        targeting_of_full hReached hMany hFull,
        targeting_of_full hReached' hMany hFull', hAgree]
      exact ⟨rfl, rfl⟩

end Recent

/- A call at ten seconds. -/
def tenSecondsLater : Clock :=
  ⟨10000000000, 10000000000, 10000000000⟩

/- A transaction at zero seconds that names the mint. -/
def oldTransaction (signature : String) : TransactionInfo :=
  ⟨signature, ["mint"], [], 0⟩

def quietDetector : SandwichDetector :=
  .new (.new 10000) 70

/- Three transactions have been added, and nothing since. -/
def onceBusyDetector : SandwichDetector :=
  .new
    ⟨[oldTransaction "a", oldTransaction "b", oldTransaction "c"], 10000⟩
    70

/- Three recent transactions of another token have been added. -/
def busyElsewhereDetector : SandwichDetector :=
  .new
    ⟨(["a", "b", "c"] : List String).map fun signature =>
        ⟨signature, ["other"], [], 9000000000⟩,
      10000⟩
    70

/- The traffic of another token makes no difference. -/
theorem dependsOnRecent_busyElsewhere :
    Reached 10000 70 busyElsewhereDetector ∧
      DependsOnRecent quietDetector busyElsewhereDetector "mint" ["mint"]
        tenSecondsLater tenSecondsLater := by
  refine ⟨reached_adding 70 (by decide), ?_⟩
  refine (dependsOnRecent_iff rfl rfl).mpr fun hAgree => ?_
  exact sameTargeting_of_onlyRecent (by unfold OnlyRecent; decide)
    (by unfold OnlyRecent; decide) hAgree

/- Neither has recent traffic; one of them comes to a score of 30. -/
theorem not_dependsOnRecent_onceBusy :
    Reached 10000 70 quietDetector ∧
      Reached 10000 70 onceBusyDetector ∧
      quietDetector.recentTraffic ["mint"] tenSecondsLater = [] ∧
      onceBusyDetector.recentTraffic ["mint"] tenSecondsLater = [] ∧
      (quietDetector.analyzeRisk "mint" ["mint"]
          tenSecondsLater).1.score = 0 ∧
      (onceBusyDetector.analyzeRisk "mint" ["mint"]
          tenSecondsLater).1.score = 30 ∧
      ¬DependsOnRecent quietDetector onceBusyDetector "mint" ["mint"]
        tenSecondsLater tenSecondsLater := by
  have hBusy : Reached 10000 70 onceBusyDetector :=
    reached_adding 70 (by decide)
  refine ⟨Transition.Reaches.refl _, hBusy, by decide, by decide,
    by decide, by decide, fun hDepends => ?_⟩
  have hSame := (hDepends (by decide)).score
  revert hSame
  decide

/- There is room for older traffic in a queue that is not full. -/
theorem ignoresStale_iff_quiet :
    IgnoresStale 10000 70 quietDetector "mint" ["mint"]
        tenSecondsLater ↔
      ["mint"] = [] ∨ 10000 ≤ 2 ∨
        (quietDetector.recentTraffic ["mint"] tenSecondsLater).length =
          10000 :=
  ignoresStale_iff (Transition.Reaches.refl _) rfl

end Mev

end Pumpy
