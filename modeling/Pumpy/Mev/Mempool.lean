import Mathlib.Data.Int.Basic
import Pumpy.Interleaving.Transition
import Pumpy.Numeric.Window

/-
  The monitor of pending transactions
  (rust-engine/src/mev/mempool.rs): a queue that drops its
  oldest entry when it is full.

  Key definitions include:
    * `MempoolMonitor`
    * `getRecentTransactions`
    * `findTargetingAccounts`
    * `MempoolMonitor.Bounded`
-/

------------------------------------------------------------
-- The Monitor
------------------------------------------------------------

namespace Pumpy

namespace Mev

/- A reading of `Instant::now()`, in nanoseconds from some moment. -/
abbrev Instant := ℤ

/- `now.duration_since(earlier)`, which saturates. -/
def durationSince (now earlier : Instant) : ℕ :=
  (now - earlier).toNat

/- `Duration::from_secs(n)`. -/
def fromSecs (n : ℕ) : ℕ :=
  n * 1000000000

structure TransactionInfo where
  signature : String
  accounts : List String
  programIds : List String
  timestamp : Instant
deriving DecidableEq

structure MempoolMonitor where
  pendingTransactions : List TransactionInfo
  maxCacheSize : ℕ
deriving DecidableEq

namespace TransactionInfo

def recent
    (now : Instant)
    (maxAge : ℕ)
    (tx : TransactionInfo) : Bool :=
  decide (durationSince now tx.timestamp ≤ maxAge)

def touches
    (accounts : List String)
    (tx : TransactionInfo) : Bool :=
  tx.accounts.any fun a => accounts.contains a

end TransactionInfo

namespace MempoolMonitor

def new (maxCacheSize : ℕ) : MempoolMonitor where
  pendingTransactions := []
  maxCacheSize := maxCacheSize

def addTransaction
    (m : MempoolMonitor)
    (tx : TransactionInfo) : MempoolMonitor :=
  { m with
    pendingTransactions :=
      Window.enqueue m.maxCacheSize m.pendingTransactions tx }

def getRecentTransactions
    (m : MempoolMonitor)
    (now : Instant)
    (maxAge : ℕ) : List TransactionInfo :=
  m.pendingTransactions.filter (·.recent now maxAge)

def findTargetingAccounts
    (m : MempoolMonitor)
    (accounts : List String) : List TransactionInfo :=
  m.pendingTransactions.filter (·.touches accounts)

def pruneOldEntries
    (m : MempoolMonitor)
    (now : Instant)
    (maxAge : ℕ) : MempoolMonitor :=
  { m with
    pendingTransactions :=
      m.pendingTransactions.filter (·.recent now maxAge) }

------------------------------------------------------------
-- Its Queue
------------------------------------------------------------

/- The queue has room for one entry at least. -/
def Bounded (m : MempoolMonitor) : Prop :=
  m.pendingTransactions.length ≤ max m.maxCacheSize 1

section Queue

variable {m : MempoolMonitor} {tx : TransactionInfo}
variable {accounts : List String} {now : Instant} {maxAge : ℕ}

theorem bounded_new (maxCacheSize : ℕ) : (new maxCacheSize).Bounded :=
  Nat.zero_le _

theorem Bounded.addTransaction
    (hBounded : m.Bounded) :
    (m.addTransaction tx).Bounded :=
  Window.length_enqueue_le hBounded

theorem Bounded.pruneOldEntries
    (hBounded : m.Bounded) :
    (m.pruneOldEntries now maxAge).Bounded :=
  (List.length_filter_le _ _).trans hBounded

/- What touches the accounts and is recent. -/
def recentTargeting
    (m : MempoolMonitor)
    (accounts : List String)
    (now : Instant)
    (maxAge : ℕ) : List TransactionInfo :=
  (m.getRecentTransactions now maxAge).filter (·.touches accounts)

theorem recentTargeting_sublist :
    (m.recentTargeting accounts now maxAge).Sublist
      (m.findTargetingAccounts accounts) := by
  unfold recentTargeting getRecentTransactions findTargetingAccounts
  exact List.filter_sublist.filter _

theorem length_findTargetingAccounts_le
    (hBounded : m.Bounded) :
    (m.findTargetingAccounts accounts).length ≤ max m.maxCacheSize 1 :=
  (List.length_filter_le _ _).trans hBounded

theorem findTargetingAccounts_nil : m.findTargetingAccounts [] = [] := by
  unfold findTargetingAccounts TransactionInfo.touches
  simp

/- A queue full of recent traffic has no other traffic. -/
theorem findTargetingAccounts_of_full
    (hBounded : m.Bounded)
    (hFull :
      max m.maxCacheSize 1 ≤
        (m.recentTargeting accounts now maxAge).length) :
    m.findTargetingAccounts accounts =
      m.recentTargeting accounts now maxAge := by
  have hLength :
      (m.findTargetingAccounts accounts).length ≤
        max m.maxCacheSize 1 :=
    length_findTargetingAccounts_le hBounded
  exact (recentTargeting_sublist.eq_of_length_le
    (hLength.trans hFull)).symm

/- The queue after some transactions, if they all fit into it. -/
theorem pendingTransactions_foldl
    {maxCacheSize : ℕ}
    {txs : List TransactionInfo}
    (hFit : txs.length ≤ max maxCacheSize 1) :
    txs.foldl MempoolMonitor.addTransaction (new maxCacheSize) =
      ⟨txs, maxCacheSize⟩ := by
  have hFold :
      ∀ q : List TransactionInfo,
        txs.foldl MempoolMonitor.addTransaction ⟨q, maxCacheSize⟩ =
          ⟨txs.foldl (Window.enqueue maxCacheSize) q, maxCacheSize⟩ := by
    clear hFit
    induction txs with
    | nil => exact fun _ => rfl
    | cons tx txs ih => exact fun q => ih _
  rw [new, hFold, Window.foldl_enqueue hFit]

end Queue

end MempoolMonitor

end Mev

end Pumpy
