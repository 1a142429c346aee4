import Mathlib.Algebra.Order.BigOperators.Group.List
import Mathlib.Algebra.Order.Field.Basic
import Mathlib.Data.Finset.Lattice.Fold
import Mathlib.Tactic.Linarith
import Mathlib.Tactic.Positivity
import Mathlib.Tactic.Ring

/-
  Drawdowns of an equity that starts at some amount and to which
  gains are added, one after another.  At each moment the
  drawdown is the part of the running peak that is lost, in
  percent.

  Key definitions include:
    * `equity`
    * `peak`
    * `path`
    * `percent`
    * `percents`

  The main result is `isGreatest_iff`: two positive starts have
  the same greatest drawdown exactly if they are the same or
  nothing is ever lost.
-/

------------------------------------------------------------
-- Equity and Peak
------------------------------------------------------------

namespace Drawdown

variable {α : Type} [Field α]

/- The equity after the first `k` gains. -/
def equity (start : α) (gains : List α) (k : ℕ) : α :=
  start + (gains.take k).sum

section Equity

variable {start s t : α} {gains : List α} {k : ℕ}

@[simp] theorem equity_zero : equity start gains 0 = start := by
  simp [equity]

theorem equity_succ (hIn : k < gains.length) :
    equity start gains (k + 1) = equity start gains k + gains[k] := by
  unfold equity
  rw [List.sum_take_succ gains k hIn, add_assoc]

theorem equity_append
    (rest : List α)
    (hIn : k ≤ gains.length) :
    equity start (gains ++ rest) k = equity start gains k := by
  unfold equity
  rw [List.take_append_of_le_length hIn]

theorem equity_shift :
    equity t gains k = equity s gains k + (t - s) := by
  unfold equity
  ring

end Equity

variable [LinearOrder α]

/- The highest equity up to the first `k` gains. -/
def peak (start : α) (gains : List α) (k : ℕ) : α :=
  (Finset.range (k + 1)).sup' Finset.nonempty_range_add_one
    (equity start gains)

/- What has been lost since the peak. -/
def drop (start : α) (gains : List α) (k : ℕ) : α :=
  peak start gains k - equity start gains k

/- The part of the peak that has been lost, in percent. -/
def percent (start : α) (gains : List α) (k : ℕ) : α :=
  drop start gains k / peak start gains k * (100 : ℕ)

/- The equity from the start to the last gain. -/
def path (start : α) (gains : List α) : List α :=
  (List.range (gains.length + 1)).map (equity start gains)

/- The drawdowns from the start to the last gain. -/
def percents (start : α) (gains : List α) : Set α :=
  {d | ∃ k ≤ gains.length, d = percent start gains k}

section Peak

variable {start s t : α} {gains : List α} {j k : ℕ}

theorem equity_le_peak (hLe : j ≤ k) :
    equity start gains j ≤ peak start gains k :=
  Finset.le_sup' (equity start gains)
    (Finset.mem_range_succ_iff.mpr hLe)

theorem peak_le_iff {bound : α} :
    peak start gains k ≤ bound ↔
      ∀ j ≤ k, equity start gains j ≤ bound := by
  unfold peak
  rw [Finset.sup'_le_iff]
  simp only [Finset.mem_range_succ_iff]

theorem start_le_peak : start ≤ peak start gains k := by
  have hFirst : equity start gains 0 ≤ peak start gains k :=
    equity_le_peak (Nat.zero_le k)
  rwa [equity_zero] at hFirst

theorem peak_append
    (rest : List α)
    (hIn : k ≤ gains.length) :
    peak start (gains ++ rest) k = peak start gains k := by
  refine Finset.sup'_congr _ rfl fun j hJ => ?_
  have hLe := Finset.mem_range_succ_iff.mp hJ
  exact equity_append rest (hLe.trans hIn)

theorem peak_succ :
    peak start gains (k + 1) =
      max (equity start gains (k + 1)) (peak start gains k) := by
  apply le_antisymm
  · rw [peak_le_iff]
    intro j hJ
    rcases Nat.le_succ_iff.mp hJ with hBefore | rfl
    · exact le_max_of_le_right (equity_le_peak hBefore)
    · exact le_max_left _ _
  · apply max_le
    · exact equity_le_peak le_rfl
    · rw [peak_le_iff]
      exact fun j hJ => equity_le_peak (hJ.trans (Nat.le_succ k))

/- More at the start is as much more at the peak. -/
theorem peak_shift [IsStrictOrderedRing α] :
    peak t gains k = peak s gains k + (t - s) := by
  apply le_antisymm
  · rw [peak_le_iff]
    intro j hJ
    rw [equity_shift (s := s)]
    exact add_le_add_left (equity_le_peak hJ) (t - s)
  · rw [← le_sub_iff_add_le, peak_le_iff]
    intro j hJ
    rw [le_sub_iff_add_le, ← equity_shift]
    exact equity_le_peak hJ

end Peak

------------------------------------------------------------
-- The Path
------------------------------------------------------------

section Path

variable {start : α} {gains : List α} {k : ℕ}

omit [LinearOrder α] in
theorem path_nil : path start [] = [start] := by
  simp [path]

omit [LinearOrder α] in
theorem length_path : (path start gains).length = gains.length + 1 := by
  simp [path]

omit [LinearOrder α] in
theorem getElem_path (hIn : k < (path start gains).length) :
    (path start gains)[k] = equity start gains k := by
  simp [path]

omit [LinearOrder α] in
theorem path_concat (g : α) :
    path start (gains ++ [g]) =
      path start gains ++
        [equity start (gains ++ [g]) (gains.length + 1)] := by
  have hBefore :
      ∀ k ∈ List.range (gains.length + 1),
        equity start (gains ++ [g]) k = equity start gains k :=
    fun k hMem =>
      equity_append [g] (Nat.le_of_lt_succ (List.mem_range.mp hMem))
  unfold path
  rw [List.length_append, List.length_singleton, List.range_succ,
    List.map_append, List.map_congr_left hBefore, List.map_singleton]

omit [LinearOrder α] in
theorem mem_take_path
    {e : α}
    (hIn : k ≤ gains.length) :
    e ∈ (path start gains).take (k + 1) ↔
      ∃ j ≤ k, equity start gains j = e := by
  unfold path
  rw [← List.map_take, List.take_range,
    Nat.min_eq_left (Nat.succ_le_succ hIn)]
  simp only [List.mem_map, List.mem_range, Nat.lt_succ_iff]

/- The peak is the highest of the path so far. -/
theorem isGreatest_peak (hIn : k ≤ gains.length) :
    IsGreatest {e | e ∈ (path start gains).take (k + 1)}
      (peak start gains k) := by
  constructor
  · rcases Finset.exists_mem_eq_sup' Finset.nonempty_range_add_one
      (equity start gains) with ⟨j, hMem, hPeak⟩
    have hLe := Finset.mem_range_succ_iff.mp hMem
    exact (mem_take_path hIn).mpr ⟨j, hLe, hPeak.symm⟩
  · intro e hMem
    rcases (mem_take_path hIn).mp hMem with ⟨j, hJ, rfl⟩
    exact equity_le_peak hJ

end Path

------------------------------------------------------------
-- Drawdowns
------------------------------------------------------------

section Drops

variable {start s t : α} {gains : List α} {k : ℕ}

/- What is lost does not depend on the start. -/
theorem drop_shift [IsStrictOrderedRing α] :
    drop t gains k = drop s gains k := by
  unfold drop
  rw [peak_shift (s := s), equity_shift (s := s)]
  exact add_sub_add_right_eq_sub _ _ _

theorem percent_append
    (rest : List α)
    (hIn : k ≤ gains.length) :
    percent start (gains ++ rest) k = percent start gains k := by
  unfold percent drop
  rw [peak_append rest hIn, equity_append rest hIn]

/- One more gain is one more moment. -/
theorem percents_concat (g : α) :
    percents start (gains ++ [g]) =
      insert (percent start (gains ++ [g]) (gains.length + 1))
        (percents start gains) := by
  ext d
  simp only [percents, List.length_append, List.length_singleton,
    Set.mem_ofPred_eq, Set.mem_insert_iff]
  constructor
  · rintro ⟨k, hK, rfl⟩
    rcases Nat.le_succ_iff.mp hK with hBefore | rfl
    · exact .inr ⟨k, hBefore, percent_append [g] hBefore⟩
    · exact .inl rfl
  · rintro (rfl | ⟨k, hK, rfl⟩)
    · exact ⟨_, le_rfl, rfl⟩
    · exact ⟨k, hK.trans (Nat.le_succ _), (percent_append [g] hK).symm⟩

theorem drop_zero : drop start gains 0 = 0 := by
  simp [drop, peak]

theorem percents_nil : percents start [] = {0} := by
  ext d
  simp [percents, percent, drop_zero]

/- The greatest drawdown after one more gain. -/
theorem isGreatest_concat
    {m g : α}
    (hM : IsGreatest (percents start gains) m) :
    IsGreatest (percents start (gains ++ [g]))
      (max (percent start (gains ++ [g]) (gains.length + 1)) m) := by
  rw [percents_concat]
  exact hM.insert _

theorem percent_eq_zero
    (hDrop : drop start gains k = 0) :
    percent start gains k = 0 := by
  rw [percent, hDrop, zero_div, zero_mul]

variable [IsStrictOrderedRing α]

theorem drop_nonneg : 0 ≤ drop start gains k :=
  sub_nonneg.mpr (equity_le_peak le_rfl)

theorem percent_pos
    (hStart : 0 < start)
    (hDrop : 0 < drop start gains k) :
    0 < percent start gains k := by
  have hPeak : 0 < peak start gains k :=
    hStart.trans_le start_le_peak
  unfold percent
  positivity

/- The same loss is less of a higher peak. -/
theorem percent_lt
    (hS : 0 < s)
    (hLt : s < t)
    (hDrop : 0 < drop t gains k) :
    percent t gains k < percent s gains k := by
  have hPeak : 0 < peak s gains k := hS.trans_le start_le_peak
  have hHigher : peak s gains k < peak t gains k := by
    rw [peak_shift (s := s) (t := t)]
    exact lt_add_of_pos_right _ (sub_pos.mpr hLt)
  have hLess :
      drop t gains k / peak t gains k <
        drop t gains k / peak s gains k :=
    div_lt_div_of_pos_left hDrop hPeak hHigher
  unfold percent
  rw [drop_shift (s := t) (t := s)]
  exact mul_lt_mul_of_pos_right hLess (by norm_num)

/- An equity that is not negative loses at most its peak. -/
theorem percent_le_hundred
    (hStart : 0 < start)
    (hEquity : 0 ≤ equity start gains k) :
    percent start gains k ≤ 100 := by
  have hPeak : 0 < peak start gains k :=
    hStart.trans_le start_le_peak
  have hPart : drop start gains k / peak start gains k ≤ 1 := by
    rw [div_le_one hPeak]
    exact sub_le_self _ hEquity
  unfold percent
  linarith

/- Without a loss the equity does not fall. -/
theorem equity_mono
    {j : ℕ}
    (hGains : ∀ g ∈ gains, 0 ≤ g)
    (hLe : j ≤ k)
    (hIn : k ≤ gains.length) :
    equity start gains j ≤ equity start gains k := by
  induction k, hLe using Nat.le_induction with
  | base => exact le_rfl
  | succ k _ ih =>
      have hBefore := ih (Nat.le_of_succ_le hIn)
      have hGain := hGains gains[k] (List.getElem_mem hIn)
      rw [equity_succ hIn]
      linarith

/- Something is lost exactly if some gain is negative. -/
theorem exists_drop_pos_iff :
    (∃ k ≤ gains.length, 0 < drop start gains k) ↔
      ∃ g ∈ gains, g < 0 := by
  constructor
  · rintro ⟨k, hK, hDrop⟩
    by_contra hNone
    have hGains : ∀ g ∈ gains, 0 ≤ g := by
      intro g hMem
      by_contra hLoss
      exact hNone ⟨g, hMem, not_le.mp hLoss⟩
    have hPeak : peak start gains k ≤ equity start gains k :=
      peak_le_iff.mpr fun j hJ => equity_mono hGains hJ hK
    unfold drop at hDrop
    linarith
  · rintro ⟨g, hMem, hLoss⟩
    rcases List.getElem_of_mem hMem with ⟨i, hIn, rfl⟩
    refine ⟨i + 1, hIn, ?_⟩
    have hPeak :
        equity start gains i ≤ peak start gains (i + 1) :=
      equity_le_peak (Nat.le_succ i)
    unfold drop
    rw [equity_succ hIn]
    linarith

------------------------------------------------------------
-- The Greatest Drawdown
------------------------------------------------------------

/- Without a loss there is no drawdown, and only then. -/
theorem isGreatest_zero_iff
    (hStart : 0 < start) :
    IsGreatest (percents start gains) 0 ↔ ∀ g ∈ gains, 0 ≤ g := by
  constructor
  · intro hGreatest g hMem
    by_contra hLoss
    rcases exists_drop_pos_iff.mpr ⟨g, hMem, not_le.mp hLoss⟩ with
      ⟨k, hK, hDrop⟩
    exact absurd (hGreatest.2 ⟨k, hK, rfl⟩)
      (not_le.mpr (percent_pos hStart hDrop))
  · intro hGains
    constructor
    · exact ⟨0, Nat.zero_le _, (percent_eq_zero drop_zero).symm⟩
    · rintro d ⟨k, hK, rfl⟩
      by_contra hPos
      have hDrop : 0 < drop start gains k := by
        refine lt_of_le_of_ne drop_nonneg fun hNone => hPos ?_
        exact (percent_eq_zero hNone.symm).le
      rcases exists_drop_pos_iff.mp ⟨k, hK, hDrop⟩ with
        ⟨g, hMem, hLoss⟩
      exact absurd (hGains g hMem) (not_le.mpr hLoss)

/- If something is lost, it is less of a higher start. -/
theorem greatest_lt
    {m n : α}
    (hS : 0 < s)
    (hLt : s < t)
    (hLoss : ∃ g ∈ gains, g < 0)
    (hM : IsGreatest (percents s gains) m)
    (hN : IsGreatest (percents t gains) n) :
    n < m := by
  rcases exists_drop_pos_iff.mpr hLoss with ⟨i, hI, hSome⟩
  have hPos : 0 < n :=
    (percent_pos (hS.trans hLt) hSome).trans_le (hN.2 ⟨i, hI, rfl⟩)
  rcases hN.1 with ⟨k, hK, rfl⟩
  have hDrop : 0 < drop t gains k := by
    refine lt_of_le_of_ne drop_nonneg fun hNone => ?_
    rw [percent_eq_zero hNone.symm] at hPos
    exact lt_irrefl _ hPos
  exact (percent_lt hS hLt hDrop).trans_le (hM.2 ⟨k, hK, rfl⟩)

/-
  The greatest drawdown from one start is that from another
  exactly if the starts are the same or nothing is ever lost.
-/
theorem isGreatest_iff
    {m : α}
    (hS : 0 < s)
    (hT : 0 < t)
    (hM : IsGreatest (percents s gains) m) :
    IsGreatest (percents t gains) m ↔
      s = t ∨ ∀ g ∈ gains, 0 ≤ g := by
  constructor
  · intro hN
    by_contra hNot
    rw [not_or] at hNot
    have hLoss : ∃ g ∈ gains, g < 0 := by
      by_contra hNone
      refine hNot.2 fun g hMem => ?_
      by_contra hNeg
      exact hNone ⟨g, hMem, not_le.mp hNeg⟩
    rcases lt_or_gt_of_ne hNot.1 with hLt | hGt
    · exact lt_irrefl m (greatest_lt hS hLt hLoss hM hN)
    · exact lt_irrefl m (greatest_lt hT hGt hLoss hN hM)
  · rintro (rfl | hGains)
    · exact hM
    · rw [hM.unique ((isGreatest_zero_iff hS).mpr hGains)]
      exact (isGreatest_zero_iff hT).mpr hGains

end Drops

end Drawdown
