import Mathlib.Data.List.Basic

/-
  The newest `n` of a list of rows, newest first, where rows of
  one time may come in any order: `ORDER BY time DESC LIMIT n`.

  Key definitions include:
    * `byTime`
    * `IsNewest`

  The main result is `IsNewest.filter_suffix`: among rows whose
  times differ the newest are, read backwards, the last ones in
  the order of time, whatever the order of the others.
-/

------------------------------------------------------------
-- The Order of Time
------------------------------------------------------------

namespace Newest

variable {α : Type} {time : α → ℕ} {n : ℕ}
variable {rows answer : List α} {p : α → Bool}

/- The rows, oldest first. -/
def byTime (time : α → ℕ) (rows : List α) : List α :=
  rows.mergeSort fun a b => decide (time a ≤ time b)

/- The answer to a query for the newest `n` of the rows. -/
def IsNewest
    (time : α → ℕ)
    (n : ℕ)
    (rows answer : List α) : Prop :=
  ∃ sorted : List α,
    sorted.Perm rows ∧
      sorted.Pairwise (fun a b => time b ≤ time a) ∧
        answer = sorted.take n

/- No two rows are of one time. -/
def Distinct (time : α → ℕ) (rows : List α) : Prop :=
  rows.Pairwise fun a b => time a ≠ time b

theorem byTime_perm (rows : List α) :
    (byTime time rows).Perm rows :=
  List.mergeSort_perm _ _

theorem sorted_byTime (rows : List α) :
    (byTime time rows).Pairwise fun a b => time a ≤ time b := by
  unfold byTime
  apply List.Pairwise.imp (fun {_ _} hLe => of_decide_eq_true hLe)
  apply List.pairwise_mergeSort
  · intro a b c hFirst hThen
    have hAb : time a ≤ time b := of_decide_eq_true hFirst
    have hBc : time b ≤ time c := of_decide_eq_true hThen
    exact decide_eq_true (Nat.le_trans hAb hBc)
  · intro a b
    rw [Bool.or_eq_true, decide_eq_true_iff, decide_eq_true_iff]
    exact Nat.le_total _ _

/- Where all times differ there is one order only. -/
theorem eq_byTime
    {chrono : List α}
    (hPerm : chrono.Perm rows)
    (hSorted : chrono.Pairwise fun a b => time a ≤ time b)
    (hDistinct : Distinct time rows) :
    chrono = byTime time rows := by
  have hStrict {l : List α} (hSame : l.Perm rows)
      (hLe : l.Pairwise fun a b => time a ≤ time b) :
      l.Pairwise fun a b => time a < time b := by
    have hNe : l.Pairwise fun a b => time a ≠ time b :=
      (hSame.pairwise_iff fun {_ _} hNe => hNe.symm).mpr hDistinct
    exact hLe.imp₂ (fun _ _ hLe hNe => Nat.lt_of_le_of_ne hLe hNe) hNe
  apply List.Perm.eq_of_pairwise ?_ (hStrict hPerm hSorted)
    (hStrict (byTime_perm rows) (sorted_byTime rows))
    (hPerm.trans (byTime_perm rows).symm)
  intro a b _ _ hLt hGt
  exact absurd hLt (Nat.lt_asymm hGt)

------------------------------------------------------------
-- The Newest Rows
------------------------------------------------------------

/- Read backwards, the rows that are looked for are in order. -/
theorem filter_reverse_eq
    {sorted : List α}
    (hPerm : sorted.Perm rows)
    (hSorted : sorted.Pairwise fun a b => time b ≤ time a)
    (hDistinct : Distinct time (rows.filter p)) :
    sorted.reverse.filter p = byTime time (rows.filter p) := by
  apply eq_byTime ?_ ?_ hDistinct
  · exact ((List.reverse_perm sorted).trans hPerm).filter p
  · exact (List.pairwise_reverse.mpr hSorted).filter p

/- They are in the answer from some time on. -/
theorem IsNewest.filter_suffix
    (hNewest : IsNewest time n rows answer)
    (hDistinct : Distinct time (rows.filter p)) :
    (answer.reverse.filter p).IsSuffix (byTime time (rows.filter p)) := by
  rcases hNewest with ⟨sorted, hPerm, hSorted, rfl⟩
  rw [← filter_reverse_eq hPerm hSorted hDistinct, List.reverse_take]
  exact (List.drop_suffix _ _).filter p

/- Where there is room for all of the rows, none is missing. -/
theorem IsNewest.filter_eq
    (hNewest : IsNewest time n rows answer)
    (hDistinct : Distinct time (rows.filter p))
    (hRoom : rows.length ≤ n) :
    answer.reverse.filter p = byTime time (rows.filter p) := by
  rcases hNewest with ⟨sorted, hPerm, hSorted, rfl⟩
  rw [List.take_of_length_le (by rwa [hPerm.length_eq])]
  exact filter_reverse_eq hPerm hSorted hDistinct

/- Nothing is in the answer that was not asked for. -/
theorem IsNewest.subset
    (hNewest : IsNewest time n rows answer) :
    answer ⊆ rows := by
  rcases hNewest with ⟨sorted, hPerm, _, rfl⟩
  intro row hMem
  exact hPerm.subset (List.mem_of_mem_take hMem)

end Newest
