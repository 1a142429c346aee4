import Pumpy.Numeric.Binary64
import Mathlib.Data.List.DropRight
import Mathlib.Data.List.TakeWhile

/-
  This file defines the text functions of the engine:
  substring search, `trim` and `split`, `str::parse` for `u64`
  and `f64`, and `{:.n}` for `f64`.

  Key definitions include:
    * `containsText`
    * `trim`
    * `splitText`
    * `parseU64`
    * `F64.parse`
    * `F64.toFixed`
-/

------------------------------------------------------------
-- Search
------------------------------------------------------------

namespace Pumpy

/- `s.contains(pat)`, on the characters of both. -/
def containsText (pat : List Char) : List Char → Bool
  | [] => pat.isPrefixOf []
  | c :: cs => pat.isPrefixOf (c :: cs) || containsText pat cs

/- A text is contained where it is a part. -/
theorem containsText_iff {pat cs : List Char} :
    containsText pat cs = true ↔ pat <:+: cs := by
  induction cs with
  | nil =>
      rw [containsText, List.isPrefixOf_iff_prefix, List.prefix_nil,
        List.infix_nil]
  | cons c cs ih =>
      rw [containsText, Bool.or_eq_true, List.isPrefixOf_iff_prefix, ih,
        List.infix_cons_iff]

------------------------------------------------------------
-- Splitting
------------------------------------------------------------

/- `char::is_whitespace`. -/
def isWhitespace (c : Char) : Bool :=
  let n := c.toNat
  (9 ≤ n && n ≤ 13) || n == 0x20 || n == 0x85 || n == 0xA0 ||
    n == 0x1680 || (0x2000 ≤ n && n ≤ 0x200A) || n == 0x2028 ||
    n == 0x2029 || n == 0x202F || n == 0x205F || n == 0x3000

/- `s.trim()`. -/
def trim (s : String) : String :=
  String.ofList
    ((s.toList.dropWhile isWhitespace).rdropWhile isWhitespace)

/- `s.split(sep)`. -/
def splitText (sep : Char) (s : String) : List String :=
  (s.toList.splitOn sep).map String.ofList

/- What follows the leading white space starts with something else. -/
private theorem dropWhile_rdropWhile
    (p : Char → Bool)
    (cs : List Char) :
    ((cs.dropWhile p).rdropWhile p).dropWhile p =
      (cs.dropWhile p).rdropWhile p := by
  rcases List.rdropWhile_prefix p (cs.dropWhile p) with ⟨tail, hSplit⟩
  cases hKept : (cs.dropWhile p).rdropWhile p with
  | nil => rfl
  | cons c rest =>
      have hAgain := List.dropWhile_idempotent p cs
      rw [← hSplit, hKept] at hAgain
      have hStart : p c = false := by
        by_contra hDrop
        have hLess := List.length_dropWhile_le p (rest ++ tail)
        have hLength := congrArg List.length hAgain
        rw [List.cons_append,
          List.dropWhile_cons_of_pos (by simpa using hDrop)] at hLength
        simp only [List.length_cons] at hLength
        omega
      exact List.dropWhile_cons_of_neg (by simpa using hStart)

/- There is nothing left to trim. -/
@[simp] theorem trim_trim (s : String) : trim (trim s) = trim s := by
  rw [trim, trim, String.toList_ofList, dropWhile_rdropWhile,
    List.rdropWhile_idempotent]

------------------------------------------------------------
-- Parsing
------------------------------------------------------------

/- The number a list of decimal digits stands for. -/
def natOfDigits (cs : List Char) : Nat :=
  cs.foldl (fun n c => 10 * n + (c.toNat - '0'.toNat)) 0

/- The decimal digits of a number stand for it. -/
theorem natOfDigits_toDigits (n : Nat) :
    natOfDigits (Nat.toDigits 10 n) = n := by
  have hFold := Nat.ofDigitChars_ten_toDigits (n := n)
  rwa [Nat.ofDigitChars_eq_foldl] at hFold

/- `s.parse::<u64>().ok()`. -/
def parseU64 (s : String) : Option UInt64 :=
  let cs :=
    match s.toList with
    | '+' :: cs => cs
    | cs => cs
  if cs = [] ∨ cs.all Char.isDigit = false then
    none
  else if natOfDigits cs < 2 ^ 64 then
    some (UInt64.ofNat (natOfDigits cs))
  else
    none

/- `s.parse::<u8>().ok()`. -/
def parseU8 (s : String) : Option UInt8 :=
  (parseU64 s).bind fun n =>
    if n.toNat < 2 ^ 8 then some n.toUInt8 else none

/- An optional sign, and what follows it. -/
def takeSign : List Char → Bool × List Char
  | '-' :: cs => (true, cs)
  | '+' :: cs => (false, cs)
  | cs => (false, cs)

/- A text of digits begins with no sign. -/
theorem takeSign_of_digits
    {cs : List Char}
    (hDigits : ∀ c ∈ cs, c.isDigit = true) :
    takeSign cs = (false, cs) := by
  unfold takeSign
  split
  · cases hDigits '-' List.mem_cons_self
  · cases hDigits '+' List.mem_cons_self
  · rfl

/- The exponent part of a decimal number, to the end of the text. -/
def parseExponent : List Char → Option ℤ
  | [] => some 0
  | c :: cs =>
      if c = 'e' ∨ c = 'E' then
        let (neg, ds) := takeSign cs
        if ds = [] ∨ ds.all Char.isDigit = false then
          none
        else
          some (if neg then -(natOfDigits ds : ℤ)
            else natOfDigits ds)
      else
        none

theorem toLower_of_digit
    {c : Char}
    (hDigit : c.isDigit = true) :
    c.toLower = c := by
  have hRange : c.val ≥ '0'.val ∧ c.val ≤ '9'.val := by
    simpa [Char.isDigit] using hDigit
  have hNot : ¬(c.val ≥ 'A'.val ∧ c.val ≤ 'Z'.val) := by
    rintro ⟨hLetter, _⟩
    exact absurd (UInt32.le_trans hLetter hRange.2) (by decide)
  exact dif_neg hNot

/- `n` in decimal, filled with zeros to `width` digits. -/
def padDigits (width n : Nat) : String :=
  let ds := (toString n).toList
  String.ofList (List.replicate (width - ds.length) '0' ++ ds)

end Pumpy

------------------------------------------------------------
-- Floating-point text
------------------------------------------------------------

namespace F64

open Pumpy

/- `s.parse::<f64>().ok()`. -/
def parse (s : String) : Option F64 :=
  let (neg, cs) := takeSign s.toList
  let lower := cs.map Char.toLower
  if lower = "inf".toList ∨ lower = "infinity".toList then
    some (.inf neg)
  else if lower = "nan".toList then
    some .nan
  else
    let (whole, rest) := cs.span Char.isDigit
    let (frac, rest) :=
      match rest with
      | '.' :: rest => rest.span Char.isDigit
      | rest => ([], rest)
    if whole = [] ∧ frac = [] then
      none
    else
      (parseExponent rest).map fun (e : ℤ) =>
        let q : ℚ :=
          natOfDigits (whole ++ frac) *
            (10 : ℚ) ^ (e - (frac.length : ℤ))
        F64.round (if neg then -q else q)

/- Digits alone are read as the number they stand for. -/
theorem parse_of_digits
    {cs : List Char}
    (hNonempty : cs ≠ [])
    (hDigits : ∀ c ∈ cs, c.isDigit = true) :
    parse (String.ofList cs) = some (round (natOfDigits cs)) := by
  have hLower : cs.map Char.toLower = cs := by
    rw [List.map_congr_left fun c hC => toLower_of_digit (hDigits c hC)]
    exact List.map_id' cs
  have hNoWord :
      ∀ w ws, w.isDigit = false → cs ≠ w :: ws := by
    rintro w ws hLetter rfl
    rw [hDigits w List.mem_cons_self] at hLetter
    cases hLetter
  have hInf : cs ≠ "inf".toList := hNoWord 'i' _ rfl
  have hInfinity : cs ≠ "infinity".toList := hNoWord 'i' _ rfl
  have hNan : cs ≠ "nan".toList := hNoWord 'n' _ rfl
  have hSpan : cs.span Char.isDigit = (cs, []) := by
    rw [List.span_eq_takeWhile_dropWhile,
      List.takeWhile_eq_self_iff.mpr hDigits,
      List.dropWhile_eq_nil_iff.mpr hDigits]
  have hValue :
      (natOfDigits (cs ++ []) : ℚ) * 10 ^ ((0 : ℤ) - 0) =
        natOfDigits cs := by
    rw [List.append_nil, sub_zero, zpow_zero, mul_one]
  rw [parse, String.toList_ofList, takeSign_of_digits hDigits]
  dsimp only
  rw [hLower, if_neg (not_or.mpr ⟨hInf, hInfinity⟩), if_neg hNan,
    hSpan]
  dsimp only
  rw [if_neg fun h => hNonempty h.1]
  exact congrArg (fun q => some (round q)) hValue

/- `format!("{:.n}", x)` for `n > 0`. -/
def toFixed (digits : Nat) : F64 → String
  | .nan => "NaN"
  | .inf neg => if neg then "-inf" else "inf"
  | .fin q =>
      let scaled := (F64.roundHalfEven (|q| * 10 ^ digits)).toNat
      (if q < 0 then "-" else "") ++
        toString (scaled / 10 ^ digits) ++ "." ++
          padDigits digits (scaled % 10 ^ digits)

end F64
