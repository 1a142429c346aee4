import Pumpy.Engine.BondingCurve
import Pumpy.Numeric.ConstantProduct

/-
  The quotes of a snapshot.  They are those of a pool that
  keeps the product of its reserves, capped by what the pool
  really holds; none of their divisions and casts fails, and
  buying costs no less than selling yields.

  Key definitions include:
    * `BondingCurveParams.tokensForSolChecked`
    * `QuotesSound`

  The main results are `quotesSound` and
  `tokensForSol_of_cost`.
-/

------------------------------------------------------------
-- Checked Quotes
------------------------------------------------------------

namespace Pumpy

open ConstantProduct

namespace BondingCurveParams

/- The quote, if no division in it fails and no cast truncates. -/
def tokensForSolChecked
    (bc : BondingCurveParams)
    (solAmount : UInt64) : Option UInt64 :=
  if solAmount = 0 ∨ bc.complete = true then
    some 0
  else do
    let product :=
      U128.saturatingMul bc.virtualSolReserves.toNat
        bc.virtualTokenReserves.toNat
    let newSolReserves :=
      U128.saturatingAdd bc.virtualSolReserves.toNat solAmount.toNat
    let newTokenReserves ← U128.div product newSolReserves
    let tokensOut := bc.virtualTokenReserves.toNat - newTokenReserves
    U128.toU64 (min tokensOut bc.realTokenReserves.toNat)

def solForTokensChecked
    (bc : BondingCurveParams)
    (tokenAmount : UInt64) : Option UInt64 :=
  if tokenAmount = 0 ∨ bc.complete = true then
    some 0
  else do
    let product :=
      U128.saturatingMul bc.virtualSolReserves.toNat
        bc.virtualTokenReserves.toNat
    let newTokenReserves :=
      U128.saturatingAdd bc.virtualTokenReserves.toNat
        tokenAmount.toNat
    let newSolReserves ← U128.div product newTokenReserves
    let solOut := bc.virtualSolReserves.toNat - newSolReserves
    U128.toU64 (min solOut bc.realSolReserves.toNat)

def solCostForTokensChecked
    (bc : BondingCurveParams)
    (tokenAmount : UInt64) : Option UInt64 :=
  if tokenAmount = 0 ∨ bc.complete = true then
    some 0
  else
    let vTok := bc.virtualTokenReserves.toNat
    let vSol := bc.virtualSolReserves.toNat
    let t := tokenAmount.toNat
    if vTok ≤ t then
      some u64Max
    else do
      let numerator := U128.saturatingMul vSol t
      let denominator ← U128.sub vTok t
      let raised ← U128.add numerator denominator
      let rounded ← U128.sub raised 1
      let solIn ← U128.div rounded denominator
      U128.toU64 (min solIn (2 ^ 64 - 1))

end BondingCurveParams

/- What the quotes of one snapshot owe each other. -/
structure QuotesSound (bc : BondingCurveParams) : Prop where
  tokensChecked :
    ∀ s, bc.tokensForSolChecked s = some (bc.tokensForSol s)
  solChecked :
    ∀ t, bc.solForTokensChecked t = some (bc.solForTokens t)
  costChecked :
    ∀ t, bc.solCostForTokensChecked t = some (bc.solCostForTokens t)
  tokensCapped : ∀ s, bc.tokensForSol s ≤ bc.realTokenReserves
  solCapped : ∀ t, bc.solForTokens t ≤ bc.realSolReserves
  tokensMono :
    ∀ s s', s ≤ s' → bc.tokensForSol s ≤ bc.tokensForSol s'
  solMono :
    ∀ t t', t ≤ t' → bc.solForTokens t ≤ bc.solForTokens t'
  costMono :
    ∀ t t', t ≤ t' → bc.solCostForTokens t ≤ bc.solCostForTokens t'
  uncrossed : ∀ t, bc.solForTokens t ≤ bc.solCostForTokens t

------------------------------------------------------------
-- Exact Quotes
------------------------------------------------------------

section Exact

variable (bc : BondingCurveParams) (a b : UInt64)

/- A product of two `u64` does not saturate a `u128`. -/
theorem saturatingMul_toNat :
    U128.saturatingMul a.toNat b.toNat = a.toNat * b.toNat := by
  have hProduct : a.toNat * b.toNat < 2 ^ 64 * 2 ^ 64 :=
    Nat.mul_lt_mul'' a.toNat_lt b.toNat_lt
  unfold U128.saturatingMul
  omega

theorem saturatingAdd_toNat :
    U128.saturatingAdd a.toNat b.toNat = a.toNat + b.toNat := by
  have hLeft := a.toNat_lt
  have hRight := b.toNat_lt
  unfold U128.saturatingAdd
  omega

/- A number capped by a `u64` is not cut off. -/
theorem toNat_ofNat_min
    (n : Nat) :
    (UInt64.ofNat (min n b.toNat)).toNat = min n b.toNat := by
  have hCap := b.toNat_lt
  rw [UInt64.toNat_ofNat']
  omega

theorem tokensForSol_toNat
    (s : UInt64) :
    (bc.tokensForSol s).toNat =
      if s = 0 ∨ bc.complete = true then
        0
      else
        min
          (proceeds bc.virtualSolReserves.toNat
            bc.virtualTokenReserves.toNat s.toNat)
          bc.realTokenReserves.toNat := by
  unfold BondingCurveParams.tokensForSol
  split
  · simp
  · rw [toNat_ofNat_min, saturatingMul_toNat, saturatingAdd_toNat]
    simp only [proceeds]

theorem solForTokens_toNat
    (t : UInt64) :
    (bc.solForTokens t).toNat =
      if t = 0 ∨ bc.complete = true then
        0
      else
        min
          (proceeds bc.virtualTokenReserves.toNat
            bc.virtualSolReserves.toNat t.toNat)
          bc.realSolReserves.toNat := by
  unfold BondingCurveParams.solForTokens
  split
  · simp
  · rw [toNat_ofNat_min, saturatingMul_toNat]
    simp only [proceeds, Nat.mul_comm]

theorem solCostForTokens_toNat
    (t : UInt64) :
    (bc.solCostForTokens t).toNat =
      if t = 0 ∨ bc.complete = true then
        0
      else if bc.virtualTokenReserves.toNat ≤ t.toNat then
        2 ^ 64 - 1
      else
        min
          (cost bc.virtualSolReserves.toNat
            bc.virtualTokenReserves.toNat t.toNat)
          (2 ^ 64 - 1) := by
  unfold BondingCurveParams.solCostForTokens
  split
  · simp
  · dsimp only
    split
    · rfl
    · rw [saturatingMul_toNat]
      exact toNat_ofNat_min u64Max _

end Exact

------------------------------------------------------------
-- Soundness
------------------------------------------------------------

section Sound

variable (bc : BondingCurveParams)

theorem toU64_of_min
    (n : Nat)
    (b : UInt64) :
    U128.toU64 (min n b.toNat) =
      some (UInt64.ofNat (min n b.toNat)) := by
  have hCap := b.toNat_lt
  unfold U128.toU64
  rw [if_pos (by omega)]

theorem div_of_pos
    {n d : Nat}
    (hPos : 0 < d) :
    U128.div n d = some (n / d) := by
  unfold U128.div
  rw [if_neg (by omega)]

/- An amount that is not zero is positive. -/
theorem toNat_pos
    {a : UInt64}
    (hAmount : a ≠ 0) :
    0 < a.toNat := by
  apply Nat.pos_of_ne_zero
  intro hZero
  exact hAmount (UInt64.toNat_inj.mp hZero)

theorem tokensForSolChecked_eq
    (s : UInt64) :
    bc.tokensForSolChecked s = some (bc.tokensForSol s) := by
  unfold BondingCurveParams.tokensForSolChecked
    BondingCurveParams.tokensForSol
  split
  · rfl
  · rename_i hTrades
    have hPos := toNat_pos (not_or.mp hTrades).1
    dsimp only
    rw [saturatingAdd_toNat, div_of_pos (by omega)]
    exact toU64_of_min _ _

theorem solForTokensChecked_eq
    (t : UInt64) :
    bc.solForTokensChecked t = some (bc.solForTokens t) := by
  unfold BondingCurveParams.solForTokensChecked
    BondingCurveParams.solForTokens
  split
  · rfl
  · rename_i hTrades
    have hPos := toNat_pos (not_or.mp hTrades).1
    dsimp only
    rw [saturatingAdd_toNat, div_of_pos (by omega)]
    exact toU64_of_min _ _

theorem solCostForTokensChecked_eq
    (t : UInt64) :
    bc.solCostForTokensChecked t = some (bc.solCostForTokens t) := by
  unfold BondingCurveParams.solCostForTokensChecked
    BondingCurveParams.solCostForTokens
  split
  · rfl
  · dsimp only
    split
    · rfl
    · have hSol := bc.virtualSolReserves.toNat_lt
      have hTokens := bc.virtualTokenReserves.toNat_lt
      have hProduct :
          bc.virtualSolReserves.toNat * t.toNat ≤
            (2 ^ 64 - 1) * (2 ^ 64 - 1) := by
        have hAmount := t.toNat_lt
        exact Nat.mul_le_mul (by omega) (by omega)
      rw [saturatingMul_toNat]
      unfold U128.sub U128.add
      rw [if_pos (by omega)]
      dsimp only [Option.bind_eq_bind, Option.bind_some]
      rw [if_pos (by omega)]
      dsimp only [Option.bind_some]
      rw [if_pos (by omega)]
      dsimp only [Option.bind_some]
      rw [div_of_pos (by omega)]
      exact toU64_of_min _ u64Max

theorem tokensForSol_le
    (s : UInt64) :
    bc.tokensForSol s ≤ bc.realTokenReserves := by
  rw [UInt64.le_iff_toNat_le, tokensForSol_toNat]
  split
  · exact Nat.zero_le _
  · exact Nat.min_le_right _ _

theorem solForTokens_le
    (t : UInt64) :
    bc.solForTokens t ≤ bc.realSolReserves := by
  rw [UInt64.le_iff_toNat_le, solForTokens_toNat]
  split
  · exact Nat.zero_le _
  · exact Nat.min_le_right _ _

/- A larger amount is an amount too. -/
theorem trades_of_le
    {a b : UInt64}
    (hLe : a ≤ b)
    (hTrades : ¬(a = 0 ∨ bc.complete = true)) :
    ¬(b = 0 ∨ bc.complete = true) := by
  rintro (hZero | hComplete)
  · have hNone : a.toNat ≤ 0 := by
      rw [hZero] at hLe
      exact UInt64.le_iff_toNat_le.mp hLe
    have hPos := toNat_pos (not_or.mp hTrades).1
    omega
  · exact hTrades (.inr hComplete)

theorem tokensForSol_mono
    {s s' : UInt64}
    (hLe : s ≤ s') :
    bc.tokensForSol s ≤ bc.tokensForSol s' := by
  rw [UInt64.le_iff_toNat_le, tokensForSol_toNat, tokensForSol_toNat]
  split
  · exact Nat.zero_le _
  · rename_i hTrades
    rw [if_neg (trades_of_le bc hLe hTrades)]
    have hPos := toNat_pos (not_or.mp hTrades).1
    apply Nat.le_min.mpr
    constructor
    · apply Nat.le_trans (Nat.min_le_left _ _)
      exact proceeds_mono (by omega) (UInt64.le_iff_toNat_le.mp hLe)
    · exact Nat.min_le_right _ _

theorem solForTokens_mono
    {t t' : UInt64}
    (hLe : t ≤ t') :
    bc.solForTokens t ≤ bc.solForTokens t' := by
  rw [UInt64.le_iff_toNat_le, solForTokens_toNat, solForTokens_toNat]
  split
  · exact Nat.zero_le _
  · rename_i hTrades
    rw [if_neg (trades_of_le bc hLe hTrades)]
    have hPos := toNat_pos (not_or.mp hTrades).1
    apply Nat.le_min.mpr
    constructor
    · apply Nat.le_trans (Nat.min_le_left _ _)
      exact proceeds_mono (by omega) (UInt64.le_iff_toNat_le.mp hLe)
    · exact Nat.min_le_right _ _

theorem solCostForTokens_mono
    {t t' : UInt64}
    (hLe : t ≤ t') :
    bc.solCostForTokens t ≤ bc.solCostForTokens t' := by
  have hAmounts := UInt64.le_iff_toNat_le.mp hLe
  rw [UInt64.le_iff_toNat_le, solCostForTokens_toNat,
    solCostForTokens_toNat]
  split
  · exact Nat.zero_le _
  · rename_i hTrades
    rw [if_neg (trades_of_le bc hLe hTrades)]
    split
    · rw [if_pos (by omega)]
    · split
      · exact Nat.min_le_right _ _
      · rename_i hReserve
        have hCost :
            cost bc.virtualSolReserves.toNat
                bc.virtualTokenReserves.toNat t.toNat ≤
              cost bc.virtualSolReserves.toNat
                bc.virtualTokenReserves.toNat t'.toNat :=
          cost_mono (Nat.not_le.mp hReserve) hAmounts
        omega

/- Selling does not quote above buying. -/
theorem solForTokens_le_solCostForTokens
    (t : UInt64) :
    bc.solForTokens t ≤ bc.solCostForTokens t := by
  have hSol := (bc.solForTokens t).toNat_lt
  rw [UInt64.le_iff_toNat_le, solCostForTokens_toNat]
  split
  · rename_i hNone
    rw [solForTokens_toNat, if_pos hNone]
  · rename_i hTrades
    split
    · omega
    · rename_i hReserve
      apply Nat.le_min.mpr
      constructor
      · rw [solForTokens_toNat, if_neg hTrades]
        apply Nat.le_trans (Nat.min_le_left _ _)
        exact proceeds_le_cost (Nat.not_le.mp hReserve)
      · omega

end Sound

/- The quotes of every snapshot are sound. -/
theorem quotesSound
    (bc : BondingCurveParams) :
    QuotesSound bc where
  tokensChecked := tokensForSolChecked_eq bc
  solChecked := solForTokensChecked_eq bc
  costChecked := solCostForTokensChecked_eq bc
  tokensCapped := tokensForSol_le bc
  solCapped := solForTokens_le bc
  tokensMono := fun _ _ hLe => tokensForSol_mono bc hLe
  solMono := fun _ _ hLe => solForTokens_mono bc hLe
  costMono := fun _ _ hLe => solCostForTokens_mono bc hLe
  uncrossed := solForTokens_le_solCostForTokens bc

------------------------------------------------------------
-- Inverses
------------------------------------------------------------

/-
  What a purchase of `t` tokens costs is what it takes to be
  quoted `t` tokens: with that much or more the pool gives at
  least `t`, with less at most `t`.
-/
theorem tokensForSol_of_cost
    (bc : BondingCurveParams)
    (t : UInt64)
    (hOpen : bc.complete = false)
    (hSol : 0 < bc.virtualSolReserves)
    (hAmount : 0 < t)
    (hReal : t ≤ bc.realTokenReserves)
    (hVirtual : t < bc.virtualTokenReserves)
    (hCost : bc.solCostForTokens t < u64Max) :
    (∀ s, bc.solCostForTokens t ≤ s → t ≤ bc.tokensForSol s) ∧
      ∀ s, s < bc.solCostForTokens t → bc.tokensForSol s ≤ t := by
  have hPool := UInt64.lt_iff_toNat_lt.mp hSol
  have hPos := UInt64.lt_iff_toNat_lt.mp hAmount
  have hHeld := UInt64.le_iff_toNat_le.mp hReal
  have hReserve := UInt64.lt_iff_toNat_lt.mp hVirtual
  have hTrades : ¬(t = 0 ∨ bc.complete = true) := by
    rintro (rfl | hComplete)
    · exact absurd hPos (Nat.lt_irrefl _)
    · rw [hOpen] at hComplete
      cases hComplete
  have hExact :
      (bc.solCostForTokens t).toNat =
        cost bc.virtualSolReserves.toNat bc.virtualTokenReserves.toNat
          t.toNat := by
    have hBelow : (bc.solCostForTokens t).toNat < 2 ^ 64 - 1 :=
      UInt64.lt_iff_toNat_lt.mp hCost
    rw [solCostForTokens_toNat, if_neg hTrades,
      if_neg (Nat.not_le.mpr hReserve)] at hBelow ⊢
    omega
  constructor
  · intro s hPaid
    have hPaid := UInt64.le_iff_toNat_le.mp hPaid
    rw [hExact] at hPaid
    have hPays := (cost_le_iff hReserve).mp hPaid
    have hSome : s ≠ 0 := by
      rintro rfl
      have hProduct := Nat.mul_pos hPool hPos
      rw [UInt64.toNat_zero, Nat.mul_zero] at hPays
      omega
    rw [UInt64.le_iff_toNat_le, tokensForSol_toNat, if_neg]
    · exact Nat.le_min.mpr ⟨proceeds_of_cost_le hReserve hPaid, hHeld⟩
    · rintro (hZero | hComplete)
      · exact hSome hZero
      · exact hTrades (.inr hComplete)
  · intro s hShort
    have hShort := UInt64.lt_iff_toNat_lt.mp hShort
    rw [hExact] at hShort
    rw [UInt64.le_iff_toNat_le, tokensForSol_toNat]
    split
    · exact Nat.zero_le _
    · apply Nat.le_trans (Nat.min_le_left _ _)
      exact proceeds_of_lt_cost (Nat.add_pos_left hPool _) hReserve hShort

/- One token of a new pool. -/
theorem tokensForSol_of_cost_samplePool :
    samplePool.solCostForTokens 1000000 < u64Max ∧
      1000000 ≤
        samplePool.tokensForSol (samplePool.solCostForTokens 1000000) := by
  have hCost : samplePool.solCostForTokens 1000000 < u64Max := by
    decide +kernel
  refine ⟨hCost, ?_⟩
  exact (tokensForSol_of_cost samplePool 1000000 rfl (by decide)
    (by decide) (by decide) (by decide) hCost).1 _ (UInt64.le_refl _)

end Pumpy
