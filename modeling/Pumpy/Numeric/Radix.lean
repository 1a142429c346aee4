import Mathlib.Data.List.TakeWhile
import Mathlib.Data.Nat.Digits.Lemmas
import Mathlib.Tactic.Ring

/-
  Numbers written in one base and rewritten in another, by
  multiplying and adding on lists of digits.

  A text of digits, most significant first, keeps its number
  of leading zeros when it is rewritten; only the rest of it
  stands for a number.

  Key definitions include:
    * `numeral`
    * `mulAdd`
    * `value`
    * `lead`
    * `convert`

  The main results are `foldl_mulAdd` and `convert_convert`.
-/

------------------------------------------------------------
-- Numerals
------------------------------------------------------------

namespace Radix

/- The digits of `v`, least significant first; `[0]` for zero. -/
def numeral (b v : Nat) : List Nat :=
  if v = 0 then [0] else Nat.digits b v

/-
  `m` times the number of a list of digits, and `c`, carried
  through the list from its least significant digit.
-/
def mulAdd (b m : Nat) : List Nat → Nat → List Nat
  | [], c => Nat.digits b c
  | d :: ds, c =>
      (c + d * m) % b :: mulAdd b m ds ((c + d * m) / b)

/- The number of a text of digits, most significant first. -/
def value (b : Nat) (l : List Nat) : Nat :=
  Nat.ofDigits b l.reverse

/- The number of leading zeros of a text of digits. -/
def lead (l : List Nat) : Nat :=
  (l.takeWhile (· = 0)).length

/- A text in base `a` rewritten in base `b`. -/
def convert (a b : Nat) (l : List Nat) : List Nat :=
  List.replicate (lead l) 0 ++
    (Nat.digits b (value a l)).reverse

variable {a b m v c : Nat}
variable {l : List Nat}

theorem numeral_of_pos
    (hPos : v ≠ 0) :
    numeral b v = Nat.digits b v :=
  if_neg hPos

theorem numeral_lt
    (hBase : 1 < b) :
    ∀ d ∈ numeral b v, d < b := by
  intro d hMem
  by_cases hZero : v = 0
  · have hDigit : d = 0 := by
      simpa [numeral, hZero] using hMem
    omega
  · rw [numeral_of_pos hZero] at hMem
    exact Nat.digits_lt_base hBase hMem

------------------------------------------------------------
-- Multiplying and Adding
------------------------------------------------------------

theorem mulAdd_lt
    (hBase : 1 < b) :
    ∀ d ∈ mulAdd b m l c, d < b := by
  induction l generalizing c with
  | nil => exact fun d hMem => Nat.digits_lt_base hBase hMem
  | cons e ds ih =>
      intro d hMem
      rcases List.mem_cons.mp hMem with hDigit | hRest
      · rw [hDigit]
        exact Nat.mod_lt _ (by omega)
      · exact ih d hRest

/- One digit and its carry are split off a number. -/
private theorem digits_of_carry
    (hBase : 1 < b)
    (hPos : m * v + c ≠ 0) :
    Nat.digits b (m * v + c) =
      (c + v % b * m) % b ::
        Nat.digits b (m * (v / b) + (c + v % b * m) / b) := by
  have hSplit :
      m * v + c = (c + v % b * m) + b * (m * (v / b)) := by
    calc
      m * v + c = m * (v % b + b * (v / b)) + c := by
        rw [Nat.mod_add_div]
      _ = (c + v % b * m) + b * (m * (v / b)) := by ring
  have hDigit : (m * v + c) % b = (c + v % b * m) % b := by
    rw [hSplit, Nat.add_mul_mod_self_left]
  have hCarry :
      (m * v + c) / b = m * (v / b) + (c + v % b * m) / b := by
    rw [hSplit, Nat.add_mul_div_left _ _ (by omega)]
    exact Nat.add_comm _ _
  rw [Nat.digits_eq_cons_digits_div hBase hPos, hDigit, hCarry]

theorem mulAdd_digits
    (hBase : 1 < b)
    (hScale : 0 < m) :
    ∀ v c,
      mulAdd b m (Nat.digits b v) c =
        Nat.digits b (m * v + c) := by
  intro v
  induction v using Nat.strong_induction_on with
  | _ v ih =>
      intro c
      by_cases hZero : v = 0
      · simp [hZero, mulAdd]
      · have hLess : v / b < v :=
          Nat.div_lt_self (Nat.pos_of_ne_zero hZero) hBase
        have hPos : m * v + c ≠ 0 := by
          have := Nat.mul_pos hScale (Nat.pos_of_ne_zero hZero)
          omega
        rw [Nat.digits_eq_cons_digits_div hBase hZero, mulAdd,
          ih (v / b) hLess, digits_of_carry hBase hPos]

/- Starting from `[0]`, the digits stay a numeral. -/
theorem mulAdd_numeral
    (hBase : 1 < b)
    (hScale : 0 < m) :
    mulAdd b m (numeral b v) c = numeral b (m * v + c) := by
  by_cases hZero : v = 0
  · by_cases hAdd : c = 0
    · simp [numeral, mulAdd, hZero, hAdd]
    · simp [numeral, mulAdd, hZero, hAdd,
        ← Nat.digits_eq_cons_digits_div hBase hAdd]
  · have hPos : m * v + c ≠ 0 := by
      have := Nat.mul_pos hScale (Nat.pos_of_ne_zero hZero)
      omega
    rw [numeral_of_pos hZero, numeral_of_pos hPos,
      mulAdd_digits hBase hScale]

theorem value_snoc
    (a d : Nat)
    (l : List Nat) :
    value a (l ++ [d]) = a * value a l + d := by
  simp [value, Nat.ofDigits_cons, Nat.add_comm]

/- Reading a text digit by digit gives the numeral of its value. -/
theorem foldl_mulAdd
    (hBase : 1 < b)
    (hScale : 0 < m) :
    l.foldl (mulAdd b m) [0] = numeral b (value m l) := by
  induction l using List.reverseRecOn with
  | nil => rfl
  | append_singleton l d ih =>
      rw [List.foldl_append, ih, value_snoc]
      exact mulAdd_numeral hBase hScale

------------------------------------------------------------
-- Leading Zeros
------------------------------------------------------------

/- A text is its leading zeros and what follows them. -/
theorem replicate_lead_append
    (l : List Nat) :
    List.replicate (lead l) 0 ++ l.dropWhile (· = 0) = l := by
  have hZeros :
      l.takeWhile (· = 0) = List.replicate (lead l) 0 := by
    refine List.eq_replicate_of_mem ?_
    intro d hMem
    simpa using List.mem_takeWhile_imp hMem
  rw [← hZeros]
  exact List.takeWhile_append_dropWhile

theorem value_replicate_append
    (a k : Nat)
    (l : List Nat) :
    value a (List.replicate k 0 ++ l) = value a l := by
  simp [value, Nat.ofDigits_append_replicate_zero]

/- What follows the leading zeros is given by the value. -/
theorem digits_value
    (hBase : 1 < a)
    (hDigits : ∀ d ∈ l, d < a) :
    (Nat.digits a (value a l)).reverse =
      l.dropWhile (· = 0) := by
  have hValue : value a l = value a (l.dropWhile (· = 0)) := by
    conv_lhs => rw [← replicate_lead_append l]
    exact value_replicate_append _ _ _
  have hRest : ∀ d ∈ (l.dropWhile (· = 0)).reverse, d < a := by
    intro d hMem
    apply hDigits
    exact List.dropWhile_subset _ (List.mem_reverse.mp hMem)
  have hLast :
      ∀ hNe : (l.dropWhile (· = 0)).reverse ≠ [],
        (l.dropWhile (· = 0)).reverse.getLast hNe ≠ 0 := by
    intro hNe
    rw [List.getLast_reverse]
    exact of_decide_eq_false
      (List.head_dropWhile_not (· = 0) (by simpa using hNe))
  rw [hValue, value, Nat.digits_ofDigits a hBase _ hRest hLast,
    List.reverse_reverse]

theorem lead_replicate_append
    (hHead : ∀ d ∈ l.head?, d ≠ 0)
    (k : Nat) :
    lead (List.replicate k 0 ++ l) = k := by
  have hNone : l.takeWhile (· = 0) = [] := by
    cases l with
    | nil => rfl
    | cons d ds =>
        have hNe : d ≠ 0 := hHead d rfl
        simp [hNe]
  rw [lead, List.takeWhile_append_of_pos (by simp), hNone]
  simp

theorem lead_convert
    (a b : Nat)
    (l : List Nat) :
    lead (convert a b l) = lead l := by
  refine lead_replicate_append ?_ _
  intro d hMem
  rw [List.head?_reverse] at hMem
  by_cases hZero : value a l = 0
  · simp [hZero] at hMem
  · have hNe : Nat.digits b (value a l) ≠ [] :=
      Nat.digits_ne_nil_iff_ne_zero.mpr hZero
    rw [List.getLast?_eq_getLast_of_ne_nil hNe] at hMem
    have hDigit := Option.mem_some.mp hMem
    rw [← hDigit]
    exact Nat.getLast_digit_ne_zero b hZero

theorem value_convert
    (a b : Nat)
    (l : List Nat) :
    value b (convert a b l) = value a l := by
  rw [convert, value_replicate_append, value,
    List.reverse_reverse, Nat.ofDigits_digits]

theorem convert_lt
    (hBase : 1 < b) :
    ∀ d ∈ convert a b l, d < b := by
  intro d hMem
  rcases List.mem_append.mp hMem with hZero | hDigit
  · have := List.eq_of_mem_replicate hZero
    omega
  · exact Nat.digits_lt_base hBase (List.mem_reverse.mp hDigit)

/- Rewriting a text and rewriting it back changes nothing. -/
theorem convert_convert
    (hBase : 1 < a)
    (hDigits : ∀ d ∈ l, d < a) :
    convert b a (convert a b l) = l := by
  calc
    convert b a (convert a b l) =
        List.replicate (lead l) 0 ++
          (Nat.digits a (value a l)).reverse := by
      rw [convert, lead_convert, value_convert]
    _ = List.replicate (lead l) 0 ++ l.dropWhile (· = 0) := by
      rw [digits_value hBase hDigits]
    _ = l := replicate_lead_append l

theorem convert_ne_nil
    (hBase : 1 < a)
    (hDigits : ∀ d ∈ l, d < a)
    (hNe : l ≠ []) :
    convert a b l ≠ [] := by
  intro hNil
  have hBack := convert_convert (b := b) hBase hDigits
  rw [hNil] at hBack
  exact hNe (hBack.symm.trans (by simp [convert, lead, value]))

------------------------------------------------------------
-- The Last Zero
------------------------------------------------------------

/- The leading zeros before the last digit. -/
def leadBefore (l : List Nat) : Nat :=
  min (lead l) (l.length - 1)

/-
  The numeral of zero has a digit of its own, so that the
  zeros before the last digit and the numeral make the text.
-/
theorem replicate_leadBefore
    (hBase : 1 < a)
    (hNe : l ≠ [])
    (hDigits : ∀ d ∈ l, d < a) :
    List.replicate (leadBefore l) 0 ++
        (numeral b (value a l)).reverse =
      convert a b l := by
  have hParts := congrArg List.length (replicate_lead_append l)
  rw [List.length_append, List.length_replicate] at hParts
  by_cases hZero : value a l = 0
  · have hRest : l.dropWhile (· = 0) = [] := by
      rw [← digits_value hBase hDigits, hZero]
      simp
    have hLength := List.length_pos_iff.mpr hNe
    have hAll : lead l = leadBefore l + 1 := by
      rw [hRest, List.length_nil] at hParts
      unfold leadBefore
      omega
    rw [convert, hZero, hAll, List.replicate_succ']
    simp [numeral]
  · have hRest : l.dropWhile (· = 0) ≠ [] := by
      intro hNil
      rw [← digits_value hBase hDigits] at hNil
      simp [Nat.digits_eq_nil_iff_eq_zero, hZero] at hNil
    have hSome := List.length_pos_iff.mpr hRest
    have hAll : leadBefore l = lead l := by
      unfold leadBefore
      omega
    rw [convert, hAll, numeral_of_pos hZero]

end Radix
