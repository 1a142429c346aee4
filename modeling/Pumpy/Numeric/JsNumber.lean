import Pumpy.Numeric.Text

/-
  The text and number functions of JavaScript: `trim`,
  `Number(s)`, the comparisons, and `ToUint8`.

  Key definitions include:
    * `Js.trim`
    * `Js.number`
    * `Js.ge`
    * `Js.toUint8`
-/

------------------------------------------------------------
-- White Space
------------------------------------------------------------

namespace Js

open Pumpy

/- What `trim` takes off: white space and line terminators. -/
def isWhitespace (c : Char) : Bool :=
  let n := c.toNat
  (9 ≤ n && n ≤ 13) || n == 0x20 || n == 0xA0 ||
    n == 0x1680 || (0x2000 ≤ n && n ≤ 0x200A) || n == 0x2028 ||
    n == 0x2029 || n == 0x202F || n == 0x205F || n == 0x3000 ||
    n == 0xFEFF

/- `s.trim()`. -/
def trim (s : String) : String :=
  String.ofList
    ((s.toList.dropWhile isWhitespace).rdropWhile isWhitespace)

/- No digit is white space. -/
theorem isWhitespace_of_digit
    {c : Char}
    (hDigit : c.isDigit = true) :
    isWhitespace c = false := by
  have hRange : '0'.toNat ≤ c.toNat ∧ c.toNat ≤ '9'.toNat := by
    simpa [Char.isDigit, UInt32.le_iff_toNat_le] using hDigit
  have hLow : 48 ≤ c.toNat := hRange.1
  have hHigh : c.toNat ≤ 57 := hRange.2
  simp [isWhitespace]
  omega

theorem trim_of_digits
    {cs : List Char}
    (hDigits : ∀ c ∈ cs, c.isDigit = true) :
    trim (String.ofList cs) = String.ofList cs := by
  have hInk : ∀ c ∈ cs, isWhitespace c = false := by
    intro c hC
    exact isWhitespace_of_digit (hDigits c hC)
  have hFront : cs.dropWhile isWhitespace = cs :=
    List.dropWhile_eq_self_iff.mpr fun hPos => by
      simp [hInk _ (List.getElem_mem hPos)]
  have hBack : cs.rdropWhile isWhitespace = cs :=
    List.rdropWhile_eq_self_iff.mpr fun hNonempty => by
      simp [hInk _ (List.getLast_mem hNonempty)]
  rw [trim, String.toList_ofList, hFront, hBack]

/- What one leaves at the front, the two together leave. -/
theorem dropWhile_or
    {α : Type}
    {p q : α → Bool}
    {xs : List α}
    (hHead : ∀ x, (xs.dropWhile p).head? = some x → q x = false) :
    xs.dropWhile p = xs.dropWhile fun x => p x || q x := by
  induction xs with
  | nil => rfl
  | cons x xs ih =>
      cases hDrop : p x with
      | true =>
          rw [List.dropWhile_cons_of_pos hDrop] at hHead ⊢
          rw [List.dropWhile_cons_of_pos (by simp [hDrop])]
          exact ih hHead
      | false =>
          rw [List.dropWhile_cons_of_neg (by simp [hDrop])] at hHead ⊢
          rw [List.dropWhile_cons_of_neg]
          simp [hDrop, hHead x rfl]

/- So two of them do the same, if each leaves what the other does. -/
theorem dropWhile_eq_of_head
    {α : Type}
    {p q : α → Bool}
    {xs : List α}
    (hLeft : ∀ x, (xs.dropWhile p).head? = some x → q x = false)
    (hRight : ∀ x, (xs.dropWhile q).head? = some x → p x = false) :
    xs.dropWhile p = xs.dropWhile q := by
  rw [dropWhile_or hLeft, dropWhile_or hRight]
  simp only [Bool.or_comm]

/- The two trims agree on what is white space in ASCII. -/
theorem isWhitespace_ascii
    {c : Char}
    (hAscii : c.toNat < 0x80) :
    isWhitespace c = Pumpy.isWhitespace c := by
  have hBits : ∀ n : Nat, 0x80 ≤ n → (c.toNat == n) = false := by
    intro n hLarge
    rw [beq_eq_false_iff_ne]
    omega
  have hRange : ¬0x2000 ≤ c.toNat := by omega
  simp [isWhitespace, Pumpy.isWhitespace, hBits, hRange]

/- A text that begins and ends in ASCII. -/
structure AsciiEnds (cs : List Char) : Prop where
  nonempty : cs ≠ []
  first : ∀ c, cs.head? = some c → c.toNat < 0x80
  last : ∀ c, cs.getLast? = some c → c.toNat < 0x80

/- What one trim leaves in front is no white space to the other. -/
theorem head_kept
    {p q : Char → Bool}
    (hSame : ∀ c : Char, c.toNat < 0x80 → p c = q c)
    {cs : List Char}
    (hFirst : ∀ c, (cs.dropWhile p).head? = some c → c.toNat < 0x80) :
    ∀ c, (cs.dropWhile p).head? = some c → q c = false := by
  intro c hHead
  have hLeft := List.head?_dropWhile_not p cs
  rw [hHead] at hLeft
  rw [← hSame c (hFirst c hHead)]
  simpa using hLeft

/- Trimming the end does not change how a text begins. -/
theorem head_rdropWhile
    {p : Char → Bool}
    {cs : List Char}
    (hNe : cs.rdropWhile p ≠ []) :
    (cs.rdropWhile p).head? = cs.head? := by
  rcases List.rdropWhile_prefix p cs with ⟨tail, hSplit⟩
  cases hKept : cs.rdropWhile p with
  | nil => exact absurd hKept hNe
  | cons c rest =>
      rw [← hSplit, hKept]
      rfl

/- Two trims that agree on ASCII agree where both ends are ASCII. -/
theorem trimmed_eq
    {p q : Char → Bool}
    (hSame : ∀ c : Char, c.toNat < 0x80 → p c = q c)
    {cs : List Char}
    (hLeft : AsciiEnds ((cs.dropWhile p).rdropWhile p))
    (hRight : AsciiEnds ((cs.dropWhile q).rdropWhile q)) :
    (cs.dropWhile p).rdropWhile p = (cs.dropWhile q).rdropWhile q := by
  have hFront : cs.dropWhile p = cs.dropWhile q := by
    apply dropWhile_eq_of_head
    · apply head_kept hSame
      rw [← head_rdropWhile hLeft.nonempty]
      exact hLeft.first
    · apply head_kept fun c hAscii => (hSame c hAscii).symm
      rw [← head_rdropWhile hRight.nonempty]
      exact hRight.first
  have hBack :
      (cs.dropWhile q).reverse.dropWhile p =
        (cs.dropWhile q).reverse.dropWhile q := by
    have hLastLeft := hLeft.last
    have hLastRight := hRight.last
    rw [hFront] at hLastLeft
    simp only [List.rdropWhile, List.getLast?_reverse]
      at hLastLeft hLastRight
    apply dropWhile_eq_of_head
    · exact head_kept hSame hLastLeft
    · exact head_kept (fun c hAscii => (hSame c hAscii).symm) hLastRight
  rw [hFront, List.rdropWhile, List.rdropWhile, hBack]

theorem trim_eq_trim
    {s : String}
    (hLeft : AsciiEnds (trim s).toList)
    (hRight : AsciiEnds (Pumpy.trim s).toList) :
    trim s = Pumpy.trim s := by
  rw [trim, String.toList_ofList] at hLeft
  rw [Pumpy.trim, String.toList_ofList] at hRight
  rw [trim, Pumpy.trim,
    trimmed_eq (fun _ => isWhitespace_ascii) hLeft hRight]

------------------------------------------------------------
-- Numbers
------------------------------------------------------------

/- The digits of a number with the prefix `0x`, `0o` or `0b`. -/
def radixDigit (base : Nat) (c : Char) : Option Nat :=
  let d :=
    if c.isDigit then some (c.toNat - '0'.toNat)
    else if 'a' ≤ c ∧ c ≤ 'f' then some (c.toNat - 'a'.toNat + 10)
    else if 'A' ≤ c ∧ c ≤ 'F' then some (c.toNat - 'A'.toNat + 10)
    else none
  d.filter (· < base)

/- The number that digits of a base stand for, at least one. -/
def radixNumber (base : Nat) (cs : List Char) : F64 :=
  if cs = [] then
    .nan
  else
    ((cs.mapM (radixDigit base)).map fun ds =>
      F64.ofNat (ds.foldl (fun n d => base * n + d) 0)).getD .nan

/- The characters of a decimal number. -/
def isDecimalChar (c : Char) : Bool :=
  c.isDigit || c == '.' || c == 'e' || c == 'E' || c == '+' ||
    c == '-'

/-
  A decimal number.  The forms without a word in them are those
  that Rust parses.
-/
def decimalNumber (cs : List Char) : F64 :=
  let (neg, unsigned) := takeSign cs
  if unsigned = "Infinity".toList then
    .inf neg
  else if cs.all isDecimalChar then
    (F64.parse (String.ofList cs)).getD .nan
  else
    .nan

/- `Number(s)`. -/
def number (s : String) : F64 :=
  match (trim s).toList with
  | [] => .fin 0
  | '0' :: 'x' :: ds => radixNumber 16 ds
  | '0' :: 'X' :: ds => radixNumber 16 ds
  | '0' :: 'o' :: ds => radixNumber 8 ds
  | '0' :: 'O' :: ds => radixNumber 8 ds
  | '0' :: 'b' :: ds => radixNumber 2 ds
  | '0' :: 'B' :: ds => radixNumber 2 ds
  | cs => decimalNumber cs

/- A text of digits is the number they stand for. -/
theorem number_of_digits
    {cs : List Char}
    (hNonempty : cs ≠ [])
    (hDigits : ∀ c ∈ cs, c.isDigit = true) :
    number (String.ofList cs) = F64.round (natOfDigits cs) := by
  have hAll : cs.all isDecimalChar = true := by
    refine List.all_eq_true.mpr fun c hC => ?_
    simp [isDecimalChar, hDigits c hC]
  have hInfinity : cs ≠ "Infinity".toList := by
    rintro rfl
    exact absurd (hDigits 'I' (by decide)) (by decide)
  have hPrefix :
      ∀ x ds, x.isDigit = false → cs ≠ '0' :: x :: ds := by
    rintro x ds hLetter rfl
    rw [hDigits x (List.mem_cons_of_mem _ List.mem_cons_self)]
      at hLetter
    cases hLetter
  rw [number, trim_of_digits hDigits, String.toList_ofList]
  split
  · exact absurd rfl hNonempty
  · exact absurd rfl (hPrefix 'x' _ rfl)
  · exact absurd rfl (hPrefix 'X' _ rfl)
  · exact absurd rfl (hPrefix 'o' _ rfl)
  · exact absurd rfl (hPrefix 'O' _ rfl)
  · exact absurd rfl (hPrefix 'b' _ rfl)
  · exact absurd rfl (hPrefix 'B' _ rfl)
  · rw [decimalNumber, takeSign_of_digits hDigits]
    dsimp only
    rw [if_neg hInfinity, if_pos hAll,
      F64.parse_of_digits hNonempty hDigits]
    rfl

/- The decimal text of a number is read back up to 53 bits. -/
theorem number_toString_of_lt
    {n : Nat}
    (hSmall : n < 2 ^ 53) :
    number (toString n) = .fin n := by
  rw [Nat.toString_eq_ofList_toDigits,
    number_of_digits Nat.toDigits_ne_nil
      fun _ => Nat.isDigit_of_mem_toDigits (by omega) (by omega),
    natOfDigits_toDigits, F64.round_natCast hSmall]
/- `isNaN(x)`. -/
def isNaN (x : F64) : Bool :=
  x == .nan

/- `x === y`, on numbers. -/
def eq (x y : F64) : Bool :=
  x == y && !isNaN x

/- `x >= y`. -/
def ge (x y : F64) : Bool :=
  x.gt y || eq x y

@[simp] theorem isNaN_fin (q : ℚ) : isNaN (.fin q) = false :=
  rfl

@[simp] theorem eq_fin (p q : ℚ) :
    eq (.fin p) (.fin q) = decide (p = q) := by
  rw [Bool.eq_iff_iff]
  simp [eq]

@[simp] theorem ge_fin (p q : ℚ) :
    ge (.fin p) (.fin q) = decide (q ≤ p) := by
  rw [Bool.eq_iff_iff, ge, F64.gt_fin, eq_fin, Bool.or_eq_true,
    decide_eq_true_eq, decide_eq_true_eq, decide_eq_true_eq,
    le_iff_lt_or_eq, @eq_comm _ q p]

/- The integer `x` is truncated to. -/
def truncate (q : ℚ) : ℤ :=
  if 0 ≤ q then ⌊q⌋ else ⌈q⌉

/- `ToUint8(x)`: truncated and modulo 256; zero if not finite. -/
def toUint8 : F64 → UInt8
  | .nan => 0
  | .inf _ => 0
  | .fin q => UInt8.ofInt (truncate q)

theorem toUint8_natCast (n : Nat) :
    toUint8 (.fin n) = UInt8.ofNat n := by
  have hBits : ((n : ℤ) % 2 ^ 8).toNat = n % 2 ^ 8 := by
    omega
  have hWhole : truncate n = n := by
    simp [truncate]
  rw [toUint8, hWhole, UInt8.ofInt, hBits, UInt8.ofNat_mod_size]

/- The decimal text of a byte is read back. -/
theorem number_toString (byte : UInt8) :
    number (toString byte.toNat) = .fin byte.toNat := by
  have hByte := byte.toNat_lt
  exact number_toString_of_lt (by omega)

end Js
