import Pumpy.Numeric.Radix
import Pumpy.Numeric.Int32

/-
  The base58 helpers of the settings routes.

  Both keep a growing array of digits, least significant
  first, that starts as `[0]`; each byte or character is
  carried through it, and what is left of the carry is pushed.

  Key definitions include:
    * `base58Encode`
    * `base58Decode`
    * `standardBase58`

  The main results are `base58Encode_eq`, `base58Decode_eq`
  and `base58_codec`.
-/

------------------------------------------------------------
-- Leading Digits
------------------------------------------------------------

namespace Pumpy

open Js

/- `BASE58_ALPHABET`. -/
def base58Alphabet : List Char :=
  "123456789ABCDEFGHJKLMNPQRSTUVWXYZabcdefghijkmnopqrstuvwxyz".toList

/-
  The passes of `for (let k = 0; p(xs[k]) && k < xs.length - 1; k++)`.
  An empty array has no first item for `p` to hold of.
-/
def leadingPasses {α : Type} (p : α → Bool) : List α → Nat
  | [] => 0
  | [_] => 0
  | x :: y :: xs =>
      if p x then leadingPasses p (y :: xs) + 1 else 0

------------------------------------------------------------
-- Encoding
------------------------------------------------------------

/- The pass over the digits, and the carry after it. -/
def carryDigits : List ℤ → ℤ → List ℤ × ℤ
  | [], carry => ([], carry)
  | d :: digits, carry =>
      let carry := carry + shiftLeft d 8
      let rest := carryDigits digits (carry.fdiv 58)
      (carry.tmod 58 :: rest.1, rest.2)

/- What `while (carry > 0)` pushes. -/
def pushDigits (carry : ℤ) : List ℤ :=
  if 0 < carry then
    carry.tmod 58 :: pushDigits (carry.fdiv 58)
  else
    []
termination_by carry.toNat
decreasing_by
  rw [Int.fdiv_eq_ediv_of_nonneg _ (by omega)]
  omega

/- The digits after one byte. -/
def encodeByte (digits : List ℤ) (byte : UInt8) : List ℤ :=
  let (digits, carry) := carryDigits digits byte.toNat
  digits ++ pushDigits carry

/- `BASE58_ALPHABET[d]`, as text appended to a string. -/
def alphabetAt (d : ℤ) : List Char :=
  let char := if d < 0 then none else base58Alphabet[d.toNat]?
  (char.map fun c => [c]).getD "undefined".toList

def base58Encode (bytes : List UInt8) : String :=
  let digits := bytes.foldl encodeByte [0]
  let ones :=
    List.replicate (leadingPasses (· == 0) bytes) (alphabetAt 0)
  String.ofList
    (ones.flatten ++ digits.reverse.flatMap alphabetAt)

------------------------------------------------------------
-- Decoding
------------------------------------------------------------

/- `BASE58_ALPHABET.indexOf(c)`. -/
def alphabetIndexOf (c : Char) : ℤ :=
  match base58Alphabet.idxOf? c with
  | some i => i
  | none => -1

/- The pass over the bytes, and the carry after it. -/
def carryBytes : List ℤ → ℤ → List ℤ × ℤ
  | [], carry => ([], carry)
  | b :: bytes, carry =>
      let carry := carry + b * 58
      let rest := carryBytes bytes (shiftRight carry 8)
      (bitAnd carry 0xff :: rest.1, rest.2)

/- What `while (carry > 0)` pushes. -/
def pushBytes (carry : ℤ) : List ℤ :=
  if 0 < carry then
    bitAnd carry 0xff :: pushBytes (shiftRight carry 8)
  else
    []
termination_by carry.toNat
decreasing_by
  exact shiftRight_lt ‹_› (by omega)

/- The bytes after one character of index `idx`. -/
def decodeIndex (bytes : List ℤ) (idx : ℤ) : List ℤ :=
  let (bytes, carry) := carryBytes bytes idx
  bytes ++ pushBytes carry

/- The loop over the characters. -/
def decodeChars : List Char → List ℤ → Except String (List ℤ)
  | [], bytes => .ok bytes
  | c :: cs, bytes =>
      let idx := alphabetIndexOf c
      if idx < 0 then
        .error s!"Invalid base58 character: {c}"
      else
        decodeChars cs (decodeIndex bytes idx)

def base58Decode (str : String) : Except String (List UInt8) := do
  let bytes ← decodeChars str.toList [0]
  let zeros :=
    List.replicate (leadingPasses (· == '1') str.toList) 0
  return (bytes ++ zeros).reverse.map UInt8.ofInt

/-
  Base58 as it is usually stated: a `1` for each leading zero
  byte, then the digits of the number the bytes stand for.
-/
def standardBase58 (bytes : List UInt8) : String :=
  let ones := (bytes.takeWhile (· = 0)).map fun _ => '1'
  let number := Nat.ofDigits 256 (bytes.map UInt8.toNat).reverse
  let digits := (Nat.digits 58 number).reverse
  String.ofList
    (ones ++ digits.map fun d => base58Alphabet.getD d '1')

------------------------------------------------------------
-- The Loops of the Encoder
------------------------------------------------------------

/- A list of digits as the numbers of an array. -/
def toNumbers (l : List Nat) : List ℤ :=
  l.map fun (d : Nat) => (d : ℤ)

/- The character of a digit below 58. -/
def base58Char (d : Nat) : Char :=
  base58Alphabet.getD d '1'

theorem length_base58Alphabet :
    base58Alphabet.length = 58 := by
  decide +kernel

theorem base58Char_eq
    {d : Nat}
    (hDigit : d < base58Alphabet.length) :
    base58Char d = base58Alphabet[d] := by
  rw [base58Char, List.getD, List.getElem?_eq_getElem hDigit,
    Option.getD_some]

theorem leadingPasses_eq
    {α : Type}
    {p : α → Bool}
    {digit : α → Nat}
    {xs : List α}
    (hZero : ∀ x ∈ xs, p x = decide (digit x = 0)) :
    leadingPasses p xs = Radix.leadBefore (xs.map digit) := by
  fun_induction leadingPasses p xs with
  | case1 => rfl
  | case2 x => simp [Radix.leadBefore]
  | case3 x y xs hHolds ih =>
      have hRest := ih fun z hMem => hZero z (by simp [hMem])
      have hHead : digit x = 0 := by
        simpa [hHolds] using hZero x (by simp)
      rw [hRest]
      simp [Radix.leadBefore, Radix.lead, hHead]
  | case4 x y xs hFails =>
      have hHead : digit x ≠ 0 := by
        simpa [hFails] using hZero x (by simp)
      simp [Radix.leadBefore, Radix.lead, hHead]

theorem toNat_bytes_lt
    (bytes : List UInt8) :
    ∀ d ∈ bytes.map UInt8.toNat, d < 256 := by
  intro d hMem
  rcases List.mem_map.mp hMem with ⟨byte, _, rfl⟩
  exact byte.toNat_lt

theorem pushDigits_ofNat
    (c : Nat) :
    pushDigits c = toNumbers (Nat.digits 58 c) := by
  induction c using Nat.strong_induction_on with
  | _ c ih =>
      rw [pushDigits]
      by_cases hZero : c = 0
      · simp [hZero, toNumbers]
      · have hLess : c / 58 < c := by omega
        have hCarry : (c : ℤ).fdiv 58 = (c / 58 : Nat) := by
          rw [Int.fdiv_eq_ediv_of_nonneg _ (by omega)]
          rfl
        have hDigit : (c : ℤ).tmod 58 = (c % 58 : Nat) := rfl
        rw [if_pos (by omega), hCarry, hDigit, ih _ hLess,
          Nat.digits_eq_cons_digits_div (by omega) hZero]
        rfl

theorem carryDigits_push
    {ds : List Nat}
    (hDigits : ∀ d ∈ ds, d < 58)
    (c : Nat) :
    (carryDigits (toNumbers ds) c).1 ++
        pushDigits (carryDigits (toNumbers ds) c).2 =
      toNumbers (Radix.mulAdd 58 256 ds c) := by
  induction ds generalizing c with
  | nil => exact pushDigits_ofNat c
  | cons d ds ih =>
      have hDigit : d < 58 := hDigits d (by simp)
      have hShift : (c : ℤ) + shiftLeft d 8 = (c + d * 256 : Nat) := by
        rw [shiftLeft_ofNat (by omega)]
        rfl
      have hCarry :
          ((c + d * 256 : Nat) : ℤ).fdiv 58 =
            ((c + d * 256) / 58 : Nat) := by
        rw [Int.fdiv_eq_ediv_of_nonneg _ (by omega)]
        rfl
      have hRest := ih (fun e hMem => hDigits e (by simp [hMem]))
        ((c + d * 256) / 58)
      have hStep :
          carryDigits (toNumbers (d :: ds)) c =
            ((((c + d * 256) % 58 : Nat) : ℤ) ::
                (carryDigits (toNumbers ds)
                  ((c + d * 256) / 58 : Nat)).1,
              (carryDigits (toNumbers ds)
                ((c + d * 256) / 58 : Nat)).2) := by
        simp only [toNumbers, List.map_cons, carryDigits]
        rw [hShift, hCarry]
        rfl
      rw [hStep, List.cons_append, hRest]
      rfl

theorem encodeByte_eq
    {ds : List Nat}
    (hDigits : ∀ d ∈ ds, d < 58)
    (byte : UInt8) :
    encodeByte (toNumbers ds) byte =
      toNumbers (Radix.mulAdd 58 256 ds byte.toNat) :=
  carryDigits_push hDigits byte.toNat

/- The digits after the loop are those of the number read. -/
theorem foldl_encodeByte
    (bytes : List UInt8) :
    bytes.foldl encodeByte [0] =
      toNumbers
        (Radix.numeral 58
          (Radix.value 256 (bytes.map UInt8.toNat))) := by
  induction bytes using List.reverseRecOn with
  | nil => rfl
  | append_singleton bytes byte ih =>
      have hDigits :
          ∀ d ∈ Radix.numeral 58
            (Radix.value 256 (bytes.map UInt8.toNat)), d < 58 :=
        Radix.numeral_lt (by omega)
      rw [List.foldl_append, ih, List.map_append, List.map_singleton,
        Radix.value_snoc, List.foldl_cons, List.foldl_nil,
        encodeByte_eq hDigits byte,
        Radix.mulAdd_numeral (by omega) (by omega)]

theorem alphabetAt_ofNat
    {d : Nat}
    (hDigit : d < 58) :
    alphabetAt d = [base58Char d] := by
  have hSome : base58Alphabet[d]? = some (base58Char d) := by
    have hLength : d < base58Alphabet.length := by
      rwa [length_base58Alphabet]
    rw [base58Char_eq hLength]
    exact List.getElem?_eq_getElem hLength
  rw [alphabetAt, if_neg (by omega), Int.toNat_natCast, hSome]
  rfl

theorem flatMap_alphabetAt
    {ds : List Nat}
    (hDigits : ∀ d ∈ ds, d < 58) :
    (toNumbers ds).flatMap alphabetAt = ds.map base58Char := by
  induction ds with
  | nil => rfl
  | cons d ds ih =>
      have hHead := alphabetAt_ofNat (hDigits d (by simp))
      have hRest := ih fun e hMem => hDigits e (by simp [hMem])
      rw [toNumbers, List.map_cons, List.flatMap_cons, hHead]
      exact congrArg (base58Char d :: ·) hRest

/- The encoder writes the bytes, read in base 256, in base 58. -/
theorem base58Encode_eq
    {bytes : List UInt8}
    (hNe : bytes ≠ []) :
    base58Encode bytes =
      String.ofList
        ((Radix.convert 256 58 (bytes.map UInt8.toNat)).map
          base58Char) := by
  have hZero :
      ∀ byte ∈ bytes, (byte == 0) = decide (byte.toNat = 0) := by
    intro byte _
    rw [Bool.eq_iff_iff]
    simp [← UInt8.toNat_inj]
  have hBytes := toNat_bytes_lt bytes
  have hOnes : ∀ k, (List.replicate k (alphabetAt 0)).flatten =
      (List.replicate k 0).map base58Char := by
    intro k
    have hOne : alphabetAt 0 = [base58Char 0] :=
      alphabetAt_ofNat (d := 0) (by omega)
    rw [hOne]
    simp
  have hReverse :
      ∀ ds : List Nat, (toNumbers ds).reverse =
        toNumbers ds.reverse := by
    intro ds
    exact List.map_reverse.symm
  have hDigits :
      ∀ d ∈ (Radix.numeral 58
        (Radix.value 256 (bytes.map UInt8.toNat))).reverse,
        d < 58 := by
    intro d hMem
    exact Radix.numeral_lt (by omega) d (List.mem_reverse.mp hMem)
  rw [← Radix.replicate_leadBefore (by omega) (by simpa using hNe)
      hBytes, ← leadingPasses_eq hZero, List.map_append]
  simp only [base58Encode]
  rw [hOnes, foldl_encodeByte, hReverse,
    flatMap_alphabetAt hDigits]

------------------------------------------------------------
-- The Loops of the Decoder
------------------------------------------------------------

theorem bitAnd_byte
    {n : Nat}
    (hSmall : n < 2 ^ 31) :
    bitAnd n 0xff = (n % 256 : Nat) :=
  bitAnd_ofNat (k := 8) (by omega) (by omega)

theorem pushBytes_ofNat
    (c : Nat)
    (hSmall : c < 2 ^ 31) :
    pushBytes c = toNumbers (Nat.digits 256 c) := by
  induction c using Nat.strong_induction_on with
  | _ c ih =>
      rw [pushBytes]
      by_cases hZero : c = 0
      · simp [hZero, toNumbers]
      · have hLess : c / 2 ^ 8 < c := by omega
        rw [if_pos (by omega), bitAnd_byte hSmall,
          shiftRight_ofNat hSmall, ih _ hLess (by omega),
          Nat.digits_eq_cons_digits_div (by omega) hZero]
        rfl

/-
  A carry below 58 leaves one below 58, so that no number of
  the loop reaches the sign bit.
-/
theorem carryBytes_push
    {bs : List Nat}
    (hBytes : ∀ b ∈ bs, b < 256)
    {c : Nat}
    (hCarry : c < 58) :
    (carryBytes (toNumbers bs) c).1 ++
        pushBytes (carryBytes (toNumbers bs) c).2 =
      toNumbers (Radix.mulAdd 256 58 bs c) := by
  induction bs generalizing c with
  | nil => exact pushBytes_ofNat c (by omega)
  | cons b bs ih =>
      have hByte : b < 256 := hBytes b (by simp)
      have hAdd : (c : ℤ) + b * 58 = (c + b * 58 : Nat) := rfl
      have hSmall : c + b * 58 < 2 ^ 31 := by omega
      have hRest := ih (fun e hMem => hBytes e (by simp [hMem]))
        (show (c + b * 58) / 2 ^ 8 < 58 by omega)
      have hStep :
          carryBytes (toNumbers (b :: bs)) c =
            ((((c + b * 58) % 256 : Nat) : ℤ) ::
                (carryBytes (toNumbers bs)
                  ((c + b * 58) / 2 ^ 8 : Nat)).1,
              (carryBytes (toNumbers bs)
                ((c + b * 58) / 2 ^ 8 : Nat)).2) := by
        simp only [toNumbers, List.map_cons, carryBytes]
        rw [hAdd, bitAnd_byte hSmall, shiftRight_ofNat hSmall]
      rw [hStep, List.cons_append, hRest]
      rfl

theorem decodeIndex_eq
    {bs : List Nat}
    (hBytes : ∀ b ∈ bs, b < 256)
    {idx : Nat}
    (hIndex : idx < 58) :
    decodeIndex (toNumbers bs) idx =
      toNumbers (Radix.mulAdd 256 58 bs idx) :=
  carryBytes_push hBytes hIndex

/- The digit a character of the alphabet stands for. -/
def base58Digit (c : Char) : Nat :=
  base58Alphabet.idxOf c

theorem base58Digit_lt
    {c : Char}
    (hMem : c ∈ base58Alphabet) :
    base58Digit c < 58 := by
  rw [← length_base58Alphabet]
  exact List.idxOf_lt_length_of_mem hMem

theorem base58Digits_lt
    {cs : List Char}
    (hChars : ∀ c ∈ cs, c ∈ base58Alphabet) :
    ∀ d ∈ cs.map base58Digit, d < 58 := by
  intro d hMem
  rcases List.mem_map.mp hMem with ⟨c, hChar, rfl⟩
  exact base58Digit_lt (hChars c hChar)

theorem alphabetIndexOf_of_mem
    {c : Char}
    (hMem : c ∈ base58Alphabet) :
    alphabetIndexOf c = base58Digit c := by
  have hIsSome : (base58Alphabet.idxOf? c).isSome := by
    simpa using hMem
  rcases Option.isSome_iff_exists.mp hIsSome with ⟨i, hSome⟩
  have hDigit : base58Digit c = i := by
    rw [base58Digit, List.idxOf_eq_getD_idxOf?, hSome,
      Option.getD_some]
  simp only [alphabetIndexOf, hSome, hDigit]

theorem alphabetIndexOf_of_notMem
    {c : Char}
    (hMem : c ∉ base58Alphabet) :
    alphabetIndexOf c < 0 := by
  have hNone : base58Alphabet.idxOf? c = none := by
    simpa using hMem
  simp [alphabetIndexOf, hNone]

/- The loop fails at the first character outside the alphabet. -/
theorem decodeChars_isError_iff
    (cs : List Char)
    (bytes : List ℤ) :
    (∃ message, decodeChars cs bytes = .error message) ↔
      ∃ c ∈ cs, c ∉ base58Alphabet := by
  induction cs generalizing bytes with
  | nil => simp [decodeChars]
  | cons c cs ih =>
      by_cases hMem : c ∈ base58Alphabet
      · have hIndex : ¬ alphabetIndexOf c < 0 := by
          rw [alphabetIndexOf_of_mem hMem]
          omega
        rw [decodeChars, if_neg hIndex, ih]
        simp [hMem]
      · have hIndex := alphabetIndexOf_of_notMem hMem
        rw [decodeChars, if_pos hIndex]
        simp [hMem]

/- Otherwise its bytes are those of the number read. -/
theorem decodeChars_eq
    {cs : List Char}
    (hChars : ∀ c ∈ cs, c ∈ base58Alphabet)
    {bs : List Nat}
    (hBytes : ∀ b ∈ bs, b < 256) :
    decodeChars cs (toNumbers bs) =
      .ok (toNumbers
        ((cs.map base58Digit).foldl (Radix.mulAdd 256 58) bs)) := by
  induction cs generalizing bs with
  | nil => rfl
  | cons c cs ih =>
      have hMem : c ∈ base58Alphabet := hChars c (by simp)
      have hIndex : ¬ alphabetIndexOf c < 0 := by
        rw [alphabetIndexOf_of_mem hMem]
        omega
      rw [decodeChars, if_neg hIndex, alphabetIndexOf_of_mem hMem,
        decodeIndex_eq hBytes (base58Digit_lt hMem),
        ih (fun e hRest => hChars e (by simp [hRest]))
          (Radix.mulAdd_lt (by omega))]
      rfl

------------------------------------------------------------
-- The Alphabet
------------------------------------------------------------

theorem base58Char_mem
    {d : Nat}
    (hDigit : d < 58) :
    base58Char d ∈ base58Alphabet := by
  have hLength : d < base58Alphabet.length := by
    rwa [length_base58Alphabet]
  rw [base58Char_eq hLength]
  exact List.getElem_mem hLength

theorem base58Char_digit
    {c : Char}
    (hMem : c ∈ base58Alphabet) :
    base58Char (base58Digit c) = c := by
  have hLength := List.idxOf_lt_length_of_mem hMem
  rw [base58Digit, base58Char_eq hLength]
  exact List.getElem_idxOf hLength

theorem nodup_base58Alphabet :
    base58Alphabet.Nodup := by
  decide +kernel

theorem base58Digit_char
    {d : Nat}
    (hDigit : d < 58) :
    base58Digit (base58Char d) = d := by
  have hLength : d < base58Alphabet.length := by
    rwa [length_base58Alphabet]
  rw [base58Digit, base58Char_eq hLength]
  exact nodup_base58Alphabet.idxOf_getElem d hLength

private theorem map_map_cancel
    {α β : Type}
    {f : α → β}
    {g : β → α}
    {xs : List α}
    (hBack : ∀ x ∈ xs, g (f x) = x) :
    (xs.map f).map g = xs := by
  rw [List.map_map]
  conv_rhs => rw [← List.map_id xs]
  exact List.map_congr_left hBack

theorem map_char_digit
    {cs : List Char}
    (hChars : ∀ c ∈ cs, c ∈ base58Alphabet) :
    (cs.map base58Digit).map base58Char = cs :=
  map_map_cancel fun c hMem => base58Char_digit (hChars c hMem)

theorem map_digit_char
    {ds : List Nat}
    (hDigits : ∀ d ∈ ds, d < 58) :
    (ds.map base58Char).map base58Digit = ds :=
  map_map_cancel fun d hMem => base58Digit_char (hDigits d hMem)

theorem isOne_eq
    {c : Char}
    (hMem : c ∈ base58Alphabet) :
    (c == '1') = decide (base58Digit c = 0) := by
  have hOne : base58Char 0 = '1' := by decide +kernel
  rw [Bool.eq_iff_iff, beq_iff_eq, decide_eq_true_iff]
  constructor
  · intro hChar
    rw [hChar, ← hOne]
    exact base58Digit_char (by omega)
  · intro hZero
    rw [← base58Char_digit hMem, hZero, hOne]

------------------------------------------------------------
-- The Codec
------------------------------------------------------------

theorem ofInt_toNumbers
    (ds : List Nat) :
    (toNumbers ds).map UInt8.ofInt = ds.map UInt8.ofNat := by
  simp only [toNumbers, List.map_map]
  apply List.map_congr_left
  intro d _
  exact UInt8.ofNat_mod_size

/- The decoder writes the digits, read in base 58, in base 256. -/
theorem base58Decode_eq
    {str : String}
    (hNe : str ≠ "")
    (hChars : ∀ c ∈ str.toList, c ∈ base58Alphabet) :
    base58Decode str =
      .ok ((Radix.convert 58 256 (str.toList.map base58Digit)).map
        UInt8.ofNat) := by
  have hBytes :
      decodeChars str.toList [0] =
        .ok (toNumbers (Radix.numeral 256
          (Radix.value 58 (str.toList.map base58Digit)))) := by
    rw [← Radix.foldl_mulAdd (by omega) (by omega)]
    exact decodeChars_eq hChars
      (show ∀ b ∈ [0], b < 256 by decide)
  have hZeros :
      leadingPasses (· == '1') str.toList =
        Radix.leadBefore (str.toList.map base58Digit) :=
    leadingPasses_eq fun c hMem => isOne_eq (hChars c hMem)
  have hDigits := base58Digits_lt hChars
  have hText : str.toList.map base58Digit ≠ [] := by
    rw [Ne, List.map_eq_nil_iff, String.toList_eq_nil_iff]
    exact hNe
  have hPadding :
      ∀ (k : Nat) (ds : List Nat),
        toNumbers ds ++ List.replicate k 0 =
          toNumbers (ds ++ List.replicate k 0) := by
    intro k ds
    simp [toNumbers]
  rw [← Radix.replicate_leadBefore (by omega) hText hDigits,
    ← hZeros, base58Decode, hBytes]
  change Except.ok _ = Except.ok _
  rw [hPadding, List.map_reverse, ofInt_toNumbers,
    ← List.map_reverse, List.reverse_append,
    List.reverse_replicate]

theorem takeWhile_zero_bytes
    (bytes : List UInt8) :
    (bytes.takeWhile (· = 0)).length =
      Radix.lead (bytes.map UInt8.toNat) := by
  rw [Radix.lead, List.takeWhile_map, List.length_map]
  congr 2
  funext byte
  simp [← UInt8.toNat_inj]

theorem standardBase58_eq
    (bytes : List UInt8) :
    standardBase58 bytes =
      String.ofList
        ((Radix.convert 256 58 (bytes.map UInt8.toNat)).map
          base58Char) := by
  have hOne : base58Char 0 = '1' := by decide +kernel
  rw [standardBase58, Radix.convert, List.map_append,
    List.map_replicate, hOne, ← takeWhile_zero_bytes,
    List.map_const']
  rfl

/- On a non-empty byte array the encoder writes standard base58. -/
theorem base58Encode_standard
    {bytes : List UInt8}
    (hNe : bytes ≠ []) :
    base58Encode bytes = standardBase58 bytes := by
  rw [base58Encode_eq hNe, standardBase58_eq]

/- The text of a non-empty byte array is over the alphabet. -/
theorem base58Encode_chars
    {bytes : List UInt8}
    (hNe : bytes ≠ []) :
    ∀ c ∈ (base58Encode bytes).toList, c ∈ base58Alphabet := by
  rw [base58Encode_eq hNe, String.toList_ofList]
  intro c hMem
  rcases List.mem_map.mp hMem with ⟨d, hDigit, rfl⟩
  exact base58Char_mem (Radix.convert_lt (by omega) d hDigit)

theorem base58Encode_ne_empty
    {bytes : List UInt8}
    (hNe : bytes ≠ []) :
    base58Encode bytes ≠ "" := by
  have hDigits : Radix.convert 256 58 (bytes.map UInt8.toNat) ≠ [] :=
    Radix.convert_ne_nil (by omega) (toNat_bytes_lt bytes)
      (by simpa using hNe)
  rw [base58Encode_eq hNe, Ne, ← String.toList_eq_nil_iff,
    String.toList_ofList, List.map_eq_nil_iff]
  exact hDigits

/- Every byte array is read back from its text. -/
theorem base58Decode_encode
    {bytes : List UInt8}
    (hNe : bytes ≠ []) :
    base58Decode (base58Encode bytes) = .ok bytes := by
  have hText :
      (base58Encode bytes).toList.map base58Digit =
        Radix.convert 256 58 (bytes.map UInt8.toNat) := by
    rw [base58Encode_eq hNe, String.toList_ofList]
    exact map_digit_char (Radix.convert_lt (by omega))
  have hBytes :
      (bytes.map UInt8.toNat).map UInt8.ofNat = bytes :=
    map_map_cancel fun byte _ => UInt8.ofNat_toNat
  rw [base58Decode_eq (base58Encode_ne_empty hNe)
      (base58Encode_chars hNe), hText,
    Radix.convert_convert (by omega) (toNat_bytes_lt bytes), hBytes]

/- Every text over the alphabet is written back. -/
theorem base58Encode_decode
    {str : String}
    (hNe : str ≠ "")
    (hChars : ∀ c ∈ str.toList, c ∈ base58Alphabet) :
    (base58Decode str).map base58Encode = .ok str := by
  have hText : str.toList.map base58Digit ≠ [] := by
    rw [Ne, List.map_eq_nil_iff, String.toList_eq_nil_iff]
    exact hNe
  have hDigits := base58Digits_lt hChars
  have hBytes :
      Radix.convert 58 256 (str.toList.map base58Digit) ≠ [] :=
    Radix.convert_ne_nil (by omega) hDigits hText
  have hBack :
      ((Radix.convert 58 256 (str.toList.map base58Digit)).map
        UInt8.ofNat).map UInt8.toNat =
          Radix.convert 58 256 (str.toList.map base58Digit) := by
    apply map_map_cancel
    intro d hMem
    have hByte : d < 256 := Radix.convert_lt (by omega) d hMem
    exact UInt8.toNat_ofNat_of_lt' hByte
  rw [base58Decode_eq hNe hChars]
  change Except.ok _ = Except.ok _
  rw [base58Encode_eq (by simpa using hBytes), hBack,
    Radix.convert_convert (by omega) hDigits,
    map_char_digit hChars, String.ofList_toList]

theorem base58Decode_isError_iff
    (str : String) :
    (∃ message, base58Decode str = .error message) ↔
      ∃ c ∈ str.toList, c ∉ base58Alphabet := by
  rw [← decodeChars_isError_iff str.toList [0]]
  cases hBytes : decodeChars str.toList [0] with
  | error message => simp [base58Decode, hBytes]
  | ok bytes => simp [base58Decode, hBytes]

/-
  The two helpers are inverse to each other, the encoder
  writes standard base58, and the decoder throws exactly on
  what is not written in the alphabet.
-/
theorem base58_codec :
    (∀ bytes, bytes ≠ [] →
      base58Decode (base58Encode bytes) = .ok bytes) ∧
    (∀ str : String, str ≠ "" →
      (∀ c ∈ str.toList, c ∈ base58Alphabet) →
      (base58Decode str).map base58Encode = .ok str) ∧
    (∀ bytes, bytes ≠ [] →
      base58Encode bytes = standardBase58 bytes) ∧
    ∀ str : String,
      (∃ message, base58Decode str = .error message) ↔
        ∃ c ∈ str.toList, c ∉ base58Alphabet := by
  refine ⟨?_, ?_, ?_, ?_⟩
  · intro bytes hNe
    exact base58Decode_encode hNe
  · intro str hNe hChars
    exact base58Encode_decode hNe hChars
  · intro bytes hNe
    exact base58Encode_standard hNe
  · exact base58Decode_isError_iff

end Pumpy
