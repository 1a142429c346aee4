import Pumpy.Engine.Types

/-
  This file defines how the engine reads a bonding-curve account
  (`get_bonding_curve_params`, rust-engine/src/pumpfun/mod.rs).

  Key definitions include:
    * `slice`
    * `parseBondingCurve`
    * `BondingCurveParams.accountBytes`
    * `Decodes`

  The main result is `decodes_iff`: the parsing panics exactly
  on the accounts of 40 to 47 bytes, and reads back every
  snapshot that an account was laid out from.
-/

------------------------------------------------------------
-- Slices
------------------------------------------------------------

namespace Pumpy

/- `<[u8; 8]>::try_from` was given a slice of another length. -/
inductive TryFromSliceError where
  | mk
deriving DecidableEq, Repr

/-
  What a piece of code over slices comes to: `none` where it
  panics, an error where a `?` returns one.
-/
abbrev Parse := ExceptT TryFromSliceError Option

/- Code that returned, with a value or an error. -/
def Parse.Returns {α : Type} (parse : Parse α) : Prop :=
  parse.run ≠ none

/- `data[start..stop]`, which panics where it leaves `data`. -/
def slice
    (data : List UInt8)
    (start stop : Nat) : Parse (List UInt8) :=
  if start ≤ stop ∧ stop ≤ data.length then
    pure ((data.drop start).take (stop - start))
  else
    ExceptT.mk none

/- `data[i]`, which panics behind the end of `data`. -/
def index (data : List UInt8) (i : Nat) : Parse UInt8 :=
  ExceptT.mk (data[i]?.map .ok)

/- `u64::from_le_bytes(bytes.try_into()?)`. -/
def u64FromLeBytes (bytes : List UInt8) : Parse UInt64 :=
  if bytes.length = 8 then
    pure (UInt64.ofNat (fromLeBytes bytes))
  else
    throw .mk

/- A word of the account, taken from eight bytes. -/
def wordAt (data : List UInt8) (offset : Nat) : Parse UInt64 := do
  u64FromLeBytes (← slice data offset (offset + 8))

------------------------------------------------------------
-- Parsing
------------------------------------------------------------

/- `BondingCurveParams::default()`. -/
def BondingCurveParams.default : BondingCurveParams where
  virtualSolReserves := 30000000000
  virtualTokenReserves := 1073000000000000
  realSolReserves := 0
  realTokenReserves := 793100000000000
  tokenTotalSupply := 1000000000000000
  complete := false

/- The completion flag, which an account may lack. -/
def completeAt
    (data : List UInt8)
    (offset : Nat) : Parse Bool :=
  if offset < data.length then do
    return (← index data offset) != 0
  else
    return false

/- The account's data as `get_bonding_curve_params` reads it. -/
def parseBondingCurve
    (data : List UInt8) : Parse BondingCurveParams := do
  if data.length < 40 then
    return BondingCurveParams.default
  -- the first eight bytes are the discriminator
  let offset := 8
  let virtualTokenReserves ← wordAt data offset
  let virtualSolReserves ← wordAt data (offset + 8)
  let realTokenReserves ← wordAt data (offset + 16)
  let realSolReserves ← wordAt data (offset + 24)
  let tokenTotalSupply ← wordAt data (offset + 32)
  let complete ← completeAt data (offset + 40)
  return {
    virtualSolReserves
    virtualTokenReserves
    realSolReserves
    realTokenReserves
    tokenTotalSupply
    complete }

/- The five words of an account, in the account's order. -/
def BondingCurveParams.accountBytes
    (p : BondingCurveParams) : List UInt8 :=
  toLeBytes p.virtualTokenReserves ++
    toLeBytes p.virtualSolReserves ++
    toLeBytes p.realTokenReserves ++
    toLeBytes p.realSolReserves ++
    toLeBytes p.tokenTotalSupply

------------------------------------------------------------
-- Words
------------------------------------------------------------

/- A word that fits is read, whatever its bytes are. -/
theorem wordAt_of_le
    {data : List UInt8}
    {offset : Nat}
    (hFits : offset + 8 ≤ data.length) :
    wordAt data offset =
      pure
        (UInt64.ofNat
          (fromLeBytes ((data.drop offset).take 8))) := by
  have hLength : ((data.drop offset).take 8).length = 8 := by
    rw [List.length_take, List.length_drop]
    omega
  unfold wordAt slice u64FromLeBytes
  rw [if_pos ⟨Nat.le_add_right _ _, hFits⟩, pure_bind,
    Nat.add_sub_cancel_left, if_pos hLength]

/- A word that does not fit panics. -/
theorem wordAt_of_lt
    {data : List UInt8}
    {offset : Nat}
    (hShort : data.length < offset + 8) :
    wordAt data offset = ExceptT.mk none := by
  have hOut : ¬(offset ≤ offset + 8 ∧ offset + 8 ≤ data.length) := by
    omega
  unfold wordAt slice
  rw [if_neg hOut]
  rfl

/- A word that was laid out between other bytes is read back. -/
theorem wordAt_toLeBytes
    {before : List UInt8}
    {offset : Nat}
    (n : UInt64)
    (after : List UInt8)
    (hBefore : before.length = offset) :
    wordAt (before ++ (toLeBytes n ++ after)) offset = pure n := by
  have hFits :
      offset + 8 ≤ (before ++ (toLeBytes n ++ after)).length := by
    simp only [List.length_append, length_toLeBytes, hBefore]
    omega
  have hBytes :
      ((before ++ (toLeBytes n ++ after)).drop offset).take 8 =
        toLeBytes n := by
    rw [List.drop_left' hBefore]
    exact List.take_left' (length_toLeBytes n)
  rw [wordAt_of_le hFits, hBytes, fromLeBytes_toLeBytes,
    UInt64.ofNat_toNat]

/- A byte that is there is read. -/
theorem index_of_lt
    {data : List UInt8}
    {i : Nat}
    (hInside : i < data.length) :
    index data i = pure data[i] := by
  unfold index
  rw [List.getElem?_eq_getElem hInside]
  rfl

/- A byte that was laid out between other bytes is read back. -/
theorem index_of_append
    {before : List UInt8}
    {i : Nat}
    (b : UInt8)
    (after : List UInt8)
    (hBefore : before.length = i) :
    index (before ++ b :: after) i = pure b := by
  unfold index
  rw [List.getElem?_append_right (Nat.le_of_eq hBefore), hBefore,
    Nat.sub_self]
  rfl

------------------------------------------------------------
-- Totality
------------------------------------------------------------

/- An account that is too short to be one is not looked at. -/
theorem parseBondingCurve_of_lt
    {data : List UInt8}
    (hShort : data.length < 40) :
    parseBondingCurve data = pure BondingCurveParams.default := by
  unfold parseBondingCurve
  rw [if_pos hShort]

/- An account whose words are read is read up to its flag. -/
theorem parseBondingCurve_of_words
    {data : List UInt8}
    {p : BondingCurveParams}
    (hLong : ¬data.length < 40)
    (hVirtualToken : wordAt data 8 = pure p.virtualTokenReserves)
    (hVirtualSol : wordAt data (8 + 8) = pure p.virtualSolReserves)
    (hRealToken : wordAt data (8 + 16) = pure p.realTokenReserves)
    (hRealSol : wordAt data (8 + 24) = pure p.realSolReserves)
    (hSupply : wordAt data (8 + 32) = pure p.tokenTotalSupply)
    (hComplete : completeAt data (8 + 40) = pure p.complete) :
    parseBondingCurve data = pure p := by
  unfold parseBondingCurve
  rw [if_neg hLong]
  simp only [hVirtualToken, hVirtualSol, hRealToken, hRealSol,
    hSupply, hComplete, pure_bind]

/- Looking for the flag does not panic. -/
theorem completeAt_returns
    (data : List UInt8)
    (offset : Nat) :
    ∃ complete, completeAt data offset = pure complete := by
  unfold completeAt
  split
  · rename_i hFlag
    rw [index_of_lt hFlag, pure_bind]
    exact ⟨_, rfl⟩
  · exact ⟨false, rfl⟩

/- An account that holds five words is read to its end. -/
theorem returns_of_le
    {data : List UInt8}
    (hWords : 48 ≤ data.length) :
    (parseBondingCurve data).Returns := by
  rcases completeAt_returns data (8 + 40) with ⟨_, hComplete⟩
  have hParse :=
    parseBondingCurve_of_words
      (p := ⟨_, _, _, _, _, _⟩)
      (by omega)
      (wordAt_of_le (by omega))
      (wordAt_of_le (by omega))
      (wordAt_of_le (by omega))
      (wordAt_of_le (by omega))
      (wordAt_of_le (by omega))
      hComplete
  rw [hParse]
  simp [Parse.Returns]

/-
  Between the length the guard asks for and the length the five
  words need, the slice of the last word ends behind the data.
-/
theorem parseBondingCurve_panics
    {data : List UInt8}
    (hGuard : 40 ≤ data.length)
    (hWords : data.length < 48) :
    (parseBondingCurve data).run = none := by
  have hLong : ¬data.length < 40 := by
    omega
  have hWord :
      ∀ offset,
        offset + 8 ≤ 40 →
          wordAt data offset =
            pure
              (UInt64.ofNat
                (fromLeBytes ((data.drop offset).take 8))) := by
    intro offset hInside
    exact wordAt_of_le (Nat.le_trans hInside hGuard)
  have hSupply : wordAt data (8 + 32) = ExceptT.mk none :=
    wordAt_of_lt hWords
  unfold parseBondingCurve
  rw [if_neg hLong]
  simp only [hWord 8 (by omega), hWord (8 + 8) (by omega),
    hWord (8 + 16) (by omega), hWord (8 + 24) (by omega), hSupply,
    pure_bind]
  rfl

theorem returns_iff
    (data : List UInt8) :
    (parseBondingCurve data).Returns ↔
      data.length < 40 ∨ 48 ≤ data.length := by
  constructor
  · intro hReturns
    by_contra hBetween
    rw [not_or] at hBetween
    exact hReturns
      (parseBondingCurve_panics (by omega) (by omega))
  · intro hLength
    rcases hLength with hShort | hWords
    · rw [parseBondingCurve_of_lt hShort]
      simp [Parse.Returns]
    · exact returns_of_le hWords

------------------------------------------------------------
-- Round Trip
------------------------------------------------------------

/- A flag that was laid out behind other bytes is read back. -/
theorem completeAt_of_append
    {before : List UInt8}
    {offset : Nat}
    (flag : UInt8)
    (after : List UInt8)
    (hBefore : before.length = offset) :
    completeAt (before ++ flag :: after) offset =
      pure (flag != 0) := by
  have hInside : offset < (before ++ flag :: after).length := by
    simp only [List.length_append, List.length_cons, hBefore]
    omega
  unfold completeAt
  rw [if_pos hInside, index_of_append flag after hBefore, pure_bind]

/- A word that was laid out among other words is read back. -/
theorem wordAt_flatMap
    {before : List UInt8}
    {words : List UInt64}
    {n : UInt64}
    {offset i : Nat}
    (after : List UInt8)
    (hOffset : before.length + 8 * i = offset)
    (hWord : words[i]? = some n) :
    wordAt (before ++ (words.flatMap toLeBytes ++ after)) offset =
      pure n := by
  induction words generalizing before i with
  | nil => cases hWord
  | cons w words ih =>
      rw [List.flatMap_cons, List.append_assoc]
      cases i with
      | zero =>
          cases hWord
          exact wordAt_toLeBytes _ _ hOffset
      | succ i =>
          rw [← List.append_assoc]
          refine ih ?_ hWord
          rw [List.length_append, length_toLeBytes]
          omega

/- What was laid out in an account is read back. -/
theorem parseBondingCurve_accountBytes
    {discriminator : List UInt8}
    {flag : UInt8}
    (p : BondingCurveParams)
    (trailing : List UInt8)
    (hDiscriminator : discriminator.length = 8)
    (hFlag : (flag != 0) = p.complete) :
    parseBondingCurve
        (discriminator ++ p.accountBytes ++ flag :: trailing) =
      pure p := by
  have hWords :
      p.accountBytes =
        [p.virtualTokenReserves, p.virtualSolReserves,
          p.realTokenReserves, p.realSolReserves,
          p.tokenTotalSupply].flatMap toLeBytes := by
    simp [BondingCurveParams.accountBytes]
  have hLength : (discriminator ++ p.accountBytes).length = 8 + 40 := by
    simp [hWords, length_toLeBytes, hDiscriminator]
  have hComplete :=
    completeAt_of_append flag trailing hLength
  rw [hFlag] at hComplete
  have hLong :
      ¬(discriminator ++ p.accountBytes ++ flag :: trailing).length
        < 40 := by
    rw [List.length_append, hLength]
    omega
  rw [List.append_assoc, hWords] at hComplete hLong ⊢
  apply parseBondingCurve_of_words hLong
  · exact wordAt_flatMap (i := 0) _ (by rw [hDiscriminator]) rfl
  · exact wordAt_flatMap (i := 1) _ (by rw [hDiscriminator]) rfl
  · exact wordAt_flatMap (i := 2) _ (by rw [hDiscriminator]) rfl
  · exact wordAt_flatMap (i := 3) _ (by rw [hDiscriminator]) rfl
  · exact wordAt_flatMap (i := 4) _ (by rw [hDiscriminator]) rfl
  · exact hComplete

/-
  The parsing returns on the account, and reads back every
  snapshot that the account may have been laid out from.
-/
structure Decodes (data : List UInt8) : Prop where
  returns : (parseBondingCurve data).Returns
  reads_back :
    ∀ (p : BondingCurveParams)
      (discriminator trailing : List UInt8)
      (flag : UInt8),
      discriminator.length = 8 →
      (flag != 0) = p.complete →
      data = discriminator ++ p.accountBytes ++ flag :: trailing →
        parseBondingCurve data = pure p

/-
  Exactly the accounts that are too short for the guard and those
  that hold five words are decoded.
-/
theorem decodes_iff
    (data : List UInt8) :
    Decodes data ↔ data.length < 40 ∨ 48 ≤ data.length := by
  constructor
  · intro hDecodes
    exact (returns_iff data).mp hDecodes.returns
  · intro hLength
    constructor
    · exact (returns_iff data).mpr hLength
    · rintro p discriminator trailing flag hDiscriminator hFlag rfl
      exact parseBondingCurve_accountBytes p trailing hDiscriminator
        hFlag

/- Forty bytes pass the guard and do not hold five words. -/
theorem not_decodes_forty_bytes :
    ¬Decodes (List.replicate 40 0) := by
  intro hDecodes
  have hLength := (returns_iff _).mp hDecodes.returns
  simp only [List.length_replicate] at hLength
  omega

/- A snapshot in an account with a flag of 2 and a byte behind it. -/
example :
    parseBondingCurve
        (List.replicate 8 7 ++
          { samplePool with complete := true }.accountBytes ++
          [2, 9]) =
      pure { samplePool with complete := true } :=
  parseBondingCurve_accountBytes _ [9] rfl rfl

end Pumpy
