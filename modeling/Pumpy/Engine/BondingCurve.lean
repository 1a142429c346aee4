import Pumpy.Numeric.Checked

/-
  This file defines the bonding-curve snapshot of a token and
  the quotes the engine takes from it
  (rust-engine/src/pumpfun/bonding_curve.rs).

  Key definitions include:
    * `BondingCurveParams`
    * `BondingCurveParams.tokensForSol`
    * `BondingCurveParams.solForTokens`
    * `BondingCurveParams.solCostForTokens`
    * `BondingCurveParams.calculatePriceImpact`
-/

------------------------------------------------------------
-- Quotes
------------------------------------------------------------

namespace Pumpy

/- A snapshot of a token's pool. -/
structure BondingCurveParams where
  virtualSolReserves : UInt64
  virtualTokenReserves : UInt64
  realSolReserves : UInt64
  realTokenReserves : UInt64
  tokenTotalSupply : UInt64
  complete : Bool
deriving DecidableEq, Repr

namespace BondingCurveParams

/- Tokens received for a given SOL input. -/
def tokensForSol
    (bc : BondingCurveParams)
    (solAmount : UInt64) : UInt64 :=
  if solAmount = 0 ∨ bc.complete = true then
    0
  else
    let product :=
      U128.saturatingMul bc.virtualSolReserves.toNat
        bc.virtualTokenReserves.toNat
    let newSolReserves :=
      U128.saturatingAdd bc.virtualSolReserves.toNat solAmount.toNat
    let newTokenReserves := product / newSolReserves
    let tokensOut := bc.virtualTokenReserves.toNat - newTokenReserves
    UInt64.ofNat (min tokensOut bc.realTokenReserves.toNat)

/- SOL received for a given token input. -/
def solForTokens
    (bc : BondingCurveParams)
    (tokenAmount : UInt64) : UInt64 :=
  if tokenAmount = 0 ∨ bc.complete = true then
    0
  else
    let product :=
      U128.saturatingMul bc.virtualSolReserves.toNat
        bc.virtualTokenReserves.toNat
    let newTokenReserves :=
      bc.virtualTokenReserves.toNat + tokenAmount.toNat
    let newSolReserves := product / newTokenReserves
    let solOut := bc.virtualSolReserves.toNat - newSolReserves
    UInt64.ofNat (min solOut bc.realSolReserves.toNat)

/-
  The SOL cost of exactly `tokenAmount` tokens, rounded up;
  `u64::MAX` when the pool cannot satisfy the request.
-/
def solCostForTokens
    (bc : BondingCurveParams)
    (tokenAmount : UInt64) : UInt64 :=
  if tokenAmount = 0 ∨ bc.complete = true then
    0
  else
    let vTok := bc.virtualTokenReserves.toNat
    let vSol := bc.virtualSolReserves.toNat
    let t := tokenAmount.toNat
    if vTok ≤ t then
      u64Max
    else
      let numerator := U128.saturatingMul vSol t
      let denominator := vTok - t
      let solIn := (numerator + denominator - 1) / denominator
      U128.clampToU64 solIn

/-
  The slippage bounds `(max_sol_cost, min_sol_output)` for
  `tokenAmount` tokens; `none` where a plain multiplication
  panics.
-/
def calculatePriceImpact
    (bc : BondingCurveParams)
    (profile : BuildProfile)
    (tokenAmount slippageBps : UInt64) :
    Option (UInt64 × UInt64) := do
  let expectedSolCost := bc.solCostForTokens tokenAmount
  let maxSolCost ←
    if expectedSolCost = u64Max then
      some u64Max
    else do
      let buffer ← profile.mul expectedSolCost slippageBps
      some (saturatingAdd expectedSolCost (buffer / 10000))
  let expectedSolOut := bc.solForTokens tokenAmount
  let cut ← profile.mul expectedSolOut slippageBps
  let minSolOutput := saturatingSub expectedSolOut (cut / 10000)
  some (maxSolCost, minSolOutput)

/- What the bounds of a snapshot are made of, where there are any. -/
theorem calculatePriceImpact_inv
    {bc : BondingCurveParams}
    {profile : BuildProfile}
    {tokenAmount slippageBps maxSolCost minSolOutput : UInt64}
    (hBounds :
      bc.calculatePriceImpact profile tokenAmount slippageBps =
        some (maxSolCost, minSolOutput)) :
    ((bc.solCostForTokens tokenAmount = u64Max ∧ maxSolCost = u64Max) ∨
      (bc.solCostForTokens tokenAmount ≠ u64Max ∧
        ∃ buffer,
          profile.mul (bc.solCostForTokens tokenAmount) slippageBps =
              some buffer ∧
            maxSolCost =
              saturatingAdd (bc.solCostForTokens tokenAmount)
                (buffer / 10000))) ∧
      ∃ cut,
        profile.mul (bc.solForTokens tokenAmount) slippageBps =
            some cut ∧
          minSolOutput =
            saturatingSub (bc.solForTokens tokenAmount)
              (cut / 10000) := by
  dsimp only [calculatePriceImpact] at hBounds
  split at hBounds
  · rename_i hMax
    rcases Option.bind_eq_some_iff.mp hBounds with ⟨_, hCost, hRest⟩
    rcases Option.bind_eq_some_iff.mp hRest with ⟨cut, hCut, hEq⟩
    cases hCost
    cases hEq
    exact ⟨.inl ⟨hMax, rfl⟩, cut, hCut, rfl⟩
  · rename_i hNotMax
    rcases Option.bind_eq_some_iff.mp hBounds with
      ⟨buffer, hBuffer, hNext⟩
    rcases Option.bind_eq_some_iff.mp hNext with ⟨_, hCost, hRest⟩
    rcases Option.bind_eq_some_iff.mp hRest with ⟨cut, hCut, hEq⟩
    cases hCost
    cases hEq
    exact ⟨.inr ⟨hNotMax, buffer, hBuffer, rfl⟩, cut, hCut, rfl⟩

end BondingCurveParams

/- A pool as it starts. -/
def samplePool : BondingCurveParams where
  virtualSolReserves := 30000000000
  virtualTokenReserves := 1073000000000000
  realSolReserves := 0
  realTokenReserves := 793100000000000
  tokenTotalSupply := 1000000000000000
  complete := false

end Pumpy
