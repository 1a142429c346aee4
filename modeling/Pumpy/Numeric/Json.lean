import Pumpy.Numeric.JsNumber

/-
  JSON texts, read as the grammar of the standard has them: an
  automaton over the characters makes tokens, and an automaton
  with a stack over the tokens makes a value.  A number keeps
  the way it is written.

  Key definitions include:
    * `Json`
    * `Json.readTokens`
    * `Json.readValue`
    * `Json.parse`

  The main results are `Json.parse_of_foreign` and
  `Json.parse_bracket`.
-/

------------------------------------------------------------
-- Values and tokens
------------------------------------------------------------

/-
  A number as it is written: the digits before and after the
  point, and the exponent.
-/
structure JsonNumber where
  neg : Bool
  whole : List Char
  frac : List Char
  exponent : Option ℤ
deriving DecidableEq

inductive Json where
  | null : Json
  | bool (b : Bool) : Json
  | num (n : JsonNumber) : Json
  | str (s : String) : Json
  | arr (items : List Json) : Json
  | obj (members : List (String × Json)) : Json

namespace JsonNumber

open Pumpy

/- The double next to the number. -/
def toF64 (n : JsonNumber) : F64 :=
  let q : ℚ :=
    natOfDigits (n.whole ++ n.frac) *
      (10 : ℚ) ^ (n.exponent.getD 0 - (n.frac.length : ℤ))
  F64.round (if n.neg then -q else q)

/- Only digits: no sign, no point and no exponent. -/
def Plain (n : JsonNumber) : Prop :=
  n.neg = false ∧ n.frac = [] ∧ n.exponent = none

instance (n : JsonNumber) : Decidable n.Plain :=
  inferInstanceAs (Decidable (_ ∧ _ ∧ _))

theorem toF64_of_plain
    {n : JsonNumber}
    (hPlain : n.Plain)
    (hSmall : natOfDigits n.whole < 2 ^ 53) :
    n.toF64 = .fin (natOfDigits n.whole) := by
  rcases hPlain with ⟨hNeg, hFrac, hExponent⟩
  rw [toF64, hNeg, hFrac, hExponent]
  simpa using F64.round_natCast hSmall

end JsonNumber

namespace Json

open Pumpy

inductive Token where
  | openArr : Token
  | closeArr : Token
  | openObj : Token
  | closeObj : Token
  | comma : Token
  | colon : Token
  | text (s : String) : Token
  | scalar (v : Json) : Token

------------------------------------------------------------
-- Characters
------------------------------------------------------------

def isSpace (c : Char) : Bool :=
  c == ' ' || c == '\t' || c == '\n' || c == '\r'

def isWordChar (c : Char) : Bool :=
  'a' ≤ c && c ≤ 'z'

def punctuation : Char → Option Token
  | '[' => some .openArr
  | ']' => some .closeArr
  | '{' => some .openObj
  | '}' => some .closeObj
  | ',' => some .comma
  | ':' => some .colon
  | _ => none

def readWord (cs : List Char) : Option Token :=
  if cs = "null".toList then some (.scalar .null)
  else if cs = "true".toList then some (.scalar (.bool true))
  else if cs = "false".toList then some (.scalar (.bool false))
  else none

/- What follows the digits before the point. -/
def readFraction (cs : List Char) : Option (List Char × List Char) :=
  match cs with
  | '.' :: cs =>
      let (frac, cs) := cs.span Char.isDigit
      if frac = [] then none else some (frac, cs)
  | cs => some ([], cs)

def readNumber (cs : List Char) : Option Token := do
  let (neg, cs) :=
    match cs with
    | '-' :: cs => (true, cs)
    | cs => (false, cs)
  let (whole, cs) := cs.span Char.isDigit
  if whole = [] ∨ (whole.head? = some '0' ∧ whole.length ≠ 1) then
    none
  else
    let (frac, cs) ← readFraction cs
    let exponent ← parseExponent cs
    return .scalar (.num
      { neg := neg
        whole := whole
        frac := frac
        exponent := if cs = [] then none else some exponent })

/-
  The text of a list of UTF-16 units and code points.  A
  surrogate without its partner is replaced.
-/
def joinUnits : List Nat → List Char
  | [] => []
  | [u] => [if 0xD800 ≤ u ∧ u < 0xE000 then '\uFFFD' else Char.ofNat u]
  | u :: v :: us =>
      if 0xD800 ≤ u ∧ u < 0xDC00 ∧ 0xDC00 ≤ v ∧ v < 0xE000 then
        Char.ofNat
            (0x10000 + (u - 0xD800) * 0x400 + (v - 0xDC00)) ::
          joinUnits us
      else if 0xD800 ≤ u ∧ u < 0xE000 then
        '\uFFFD' :: joinUnits (v :: us)
      else
        Char.ofNat u :: joinUnits (v :: us)

/- The character after a backslash, unless it is a `u`. -/
def escaped : Char → Option Char
  | '"' => some '"'
  | '\\' => some '\\'
  | '/' => some '/'
  | 'b' => some '\x08'
  | 'f' => some '\x0C'
  | 'n' => some '\n'
  | 'r' => some '\r'
  | 't' => some '\t'
  | _ => none

------------------------------------------------------------
-- Tokens
------------------------------------------------------------

/- What a reader of characters is in; its text is reversed. -/
inductive Mode where
  | between : Mode
  | word (cs : List Char) : Mode
  | number (cs : List Char) : Mode
  | text (us : List Nat) : Mode
  | escape (us : List Nat) : Mode
  | hex (us ds : List Nat) : Mode

/- The tokens so far are reversed. -/
structure Lexer where
  mode : Mode
  tokens : List Token

namespace Lexer

/- A character between two tokens. -/
def start (tokens : List Token) (c : Char) : Option Lexer :=
  if isSpace c then some ⟨.between, tokens⟩
  else if c = '"' then some ⟨.text [], tokens⟩
  else if isWordChar c then some ⟨.word [c], tokens⟩
  else if c = '-' ∨ c.isDigit then some ⟨.number [c], tokens⟩
  else (punctuation c).map fun token => ⟨.between, token :: tokens⟩

def step (l : Lexer) (c : Char) : Option Lexer :=
  match l.mode with
  | .between => start l.tokens c
  | .word cs =>
      if isWordChar c then
        some ⟨.word (c :: cs), l.tokens⟩
      else
        (readWord cs.reverse).bind fun token =>
          start (token :: l.tokens) c
  | .number cs =>
      if Js.isDecimalChar c then
        some ⟨.number (c :: cs), l.tokens⟩
      else
        (readNumber cs.reverse).bind fun token =>
          start (token :: l.tokens) c
  | .text us =>
      if c = '"' then
        let s := String.ofList (joinUnits us.reverse)
        some ⟨.between, .text s :: l.tokens⟩
      else if c = '\\' then
        some ⟨.escape us, l.tokens⟩
      else if c.toNat < 0x20 then
        none
      else
        some ⟨.text (c.toNat :: us), l.tokens⟩
  | .escape us =>
      if c = 'u' then
        some ⟨.hex us [], l.tokens⟩
      else
        (escaped c).map fun e => ⟨.text (e.toNat :: us), l.tokens⟩
  | .hex us ds =>
      (Js.radixDigit 16 c).map fun d =>
        if ds.length = 3 then
          let u := (ds ++ [d]).foldl (fun n d => 16 * n + d) 0
          ⟨.text (u :: us), l.tokens⟩
        else
          ⟨.hex us (ds ++ [d]), l.tokens⟩

/- The tokens, at the end of the text. -/
def finish (l : Lexer) : Option (List Token) :=
  match l.mode with
  | .between => some l.tokens.reverse
  | .word cs =>
      (readWord cs.reverse).map fun token =>
        (token :: l.tokens).reverse
  | .number cs =>
      (readNumber cs.reverse).map fun token =>
        (token :: l.tokens).reverse
  | _ => none

end Lexer

def readTokens (cs : List Char) : Option (List Token) :=
  (cs.foldlM Lexer.step ⟨.between, []⟩).bind Lexer.finish

------------------------------------------------------------
-- Values
------------------------------------------------------------

/- An array or an object that is not closed yet, reversed. -/
inductive Frame where
  | arr (items : List Json) : Frame
  | obj (members : List (String × Json)) (key : String) : Frame

/- What the next token is to be. -/
inductive Expected where
  -- A value; or the end of the array, where it has just been opened.
  | value : Expected
  | first : Expected
  -- A key; or the end of the object, where it has just been opened.
  | key (members : List (String × Json)) : Expected
  | firstKey : Expected
  | colon (members : List (String × Json)) (key : String) : Expected
  -- What follows a value that is complete.
  | after (v : Json) : Expected

structure Builder where
  expected : Expected
  stack : List Frame

namespace Builder

/- A token where a value begins. -/
def open_ (stack : List Frame) : Token → Option Builder
  | .scalar v => some ⟨.after v, stack⟩
  | .text s => some ⟨.after (.str s), stack⟩
  | .openArr => some ⟨.first, .arr [] :: stack⟩
  | .openObj => some ⟨.firstKey, stack⟩
  | _ => none

def step (b : Builder) (token : Token) : Option Builder :=
  match b.expected, token with
  | .value, token => open_ b.stack token
  | .first, .closeArr => some ⟨.after (.arr []), b.stack.tail⟩
  | .first, token => open_ b.stack token
  | .firstKey, .closeObj => some ⟨.after (.obj []), b.stack⟩
  | .firstKey, .text s => some ⟨.colon [] s, b.stack⟩
  | .key members, .text s => some ⟨.colon members s, b.stack⟩
  | .colon members key, .colon =>
      some ⟨.value, .obj members key :: b.stack⟩
  | .after v, token =>
      match b.stack, token with
      | .arr items :: stack, .comma =>
          some ⟨.value, .arr (v :: items) :: stack⟩
      | .arr items :: stack, .closeArr =>
          some ⟨.after (.arr (v :: items).reverse), stack⟩
      | .obj members key :: stack, .comma =>
          some ⟨.key ((key, v) :: members), stack⟩
      | .obj members key :: stack, .closeObj =>
          some ⟨.after (.obj ((key, v) :: members).reverse), stack⟩
      | _, _ => none
  | _, _ => none

/- The value, at the end of the text. -/
def finish (b : Builder) : Option Json :=
  match b.expected, b.stack with
  | .after v, [] => some v
  | _, _ => none

end Builder

def readValue (tokens : List Token) : Option Json :=
  (tokens.foldlM Builder.step ⟨.value, []⟩).bind Builder.finish

/- The value of a text, if it is a JSON text. -/
def parse (s : String) : Option Json :=
  (readTokens s.toList).bind readValue

------------------------------------------------------------
-- The end of a text
------------------------------------------------------------

/- What each step keeps is there after all of them. -/
theorem foldlM_keeps
    {σ α : Type}
    {step : σ → α → Option σ}
    {Kept : σ → Prop}
    (hStep : ∀ s x s', Kept s → step s x = some s' → Kept s')
    {xs : List α}
    {s s' : σ}
    (hStart : Kept s)
    (hRun : xs.foldlM step s = some s') :
    Kept s' := by
  induction xs generalizing s with
  | nil =>
      rw [List.foldlM_nil] at hRun
      cases hRun
      exact hStart
  | cons x xs ih =>
      rw [List.foldlM_cons] at hRun
      rcases Option.bind_eq_some_iff.mp hRun with ⟨next, hNext, hRun⟩
      exact ih (hStep s x next hStart hNext) hRun

section Foreign

variable {c : Char}

/- It is none of the characters that the grammar names. -/
theorem ne_of_foreign
    (hForeign : 0x80 ≤ c.toNat)
    (d : Char)
    (hAscii : d.toNat < 0x80) :
    c ≠ d := by
  rintro rfl
  omega

theorem not_isDigit_of_foreign
    (hForeign : 0x80 ≤ c.toNat) :
    c.isDigit = false := by
  rw [Bool.eq_false_iff]
  intro hDigit
  have hLast : '9'.toNat = 57 := rfl
  simp only [Char.isDigit, Bool.and_eq_true, decide_eq_true_eq,
    UInt32.le_iff_toNat_le, Char.toNat_val] at hDigit
  omega

/- It is in no range that ends with an ASCII character. -/
theorem not_le_of_foreign
    (hForeign : 0x80 ≤ c.toNat)
    (d : Char)
    (hAscii : d.toNat < 0x80) :
    ¬c ≤ d := by
  rw [Char.le_def, UInt32.le_iff_toNat_le, Char.toNat_val,
    Char.toNat_val]
  omega

/- It stands between no two tokens. -/
theorem Lexer.start_foreign
    (hForeign : 0x80 ≤ c.toNat)
    (tokens : List Token) :
    Lexer.start tokens c = none := by
  have hNe := ne_of_foreign hForeign
  have hLe := not_le_of_foreign hForeign
  have hSpace : isSpace c = false := by
    simp [isSpace, hNe]
  have hWord : isWordChar c = false := by
    simp [isWordChar, hLe]
  have hPunctuation : punctuation c = none := by
    unfold punctuation
    split <;> first | rfl | exact absurd hForeign (by decide)
  simp [start, hSpace, hWord, not_isDigit_of_foreign hForeign,
    hPunctuation, hNe]

/- Only a string has room for it, and is open after it. -/
theorem Lexer.step_foreign
    (hForeign : 0x80 ≤ c.toNat)
    {l l' : Lexer}
    (hStep : l.step c = some l') :
    ∃ us, l'.mode = .text us := by
  have hNe := ne_of_foreign hForeign
  have hLe := not_le_of_foreign hForeign
  have hDigit := not_isDigit_of_foreign hForeign
  rcases l with ⟨mode, tokens⟩
  cases mode with
  | between =>
      simp [step, start_foreign hForeign] at hStep
  | word cs =>
      simp [step, isWordChar, hLe, start_foreign hForeign] at hStep
  | number cs =>
      simp [step, Js.isDecimalChar, hDigit, hNe,
        start_foreign hForeign] at hStep
  | text us =>
      have hPrintable : ¬c.toNat < 0x20 := by omega
      simp only [step, hNe '"' (by decide), hNe '\\' (by decide),
        hPrintable, if_false, Option.some.injEq] at hStep
      exact ⟨_, congrArg Lexer.mode hStep.symm⟩
  | escape us =>
      have hEscaped : escaped c = none := by
        unfold escaped
        split <;> first | rfl | exact absurd hForeign (by decide)
      simp [step, hNe, hEscaped] at hStep
  | hex us ds =>
      simp [step, Js.radixDigit, hDigit, hLe] at hStep

/- No JSON text ends with such a character. -/
theorem parse_of_foreign
    (hForeign : 0x80 ≤ c.toNat)
    {s : String}
    (hLast : s.toList.getLast? = some c) :
    parse s = none := by
  rcases List.getLast?_eq_some_iff.mp hLast with ⟨cs, hText⟩
  have hTokens : readTokens s.toList = none := by
    rw [readTokens, Option.bind_eq_none_iff]
    intro l hRead
    rw [hText, List.foldlM_append] at hRead
    rcases Option.bind_eq_some_iff.mp hRead with ⟨before, -, hEnd⟩
    rw [List.foldlM_cons] at hEnd
    rcases Option.bind_eq_some_iff.mp hEnd with ⟨final, hStep, hRest⟩
    rw [List.foldlM_nil] at hRest
    cases hRest
    rcases Lexer.step_foreign hForeign hStep with ⟨us, hMode⟩
    rw [Lexer.finish, hMode]
  rw [parse, hTokens, Option.bind_none]

end Foreign

------------------------------------------------------------
-- The start of a text
------------------------------------------------------------

/- A token that has been read is not taken back. -/
theorem Lexer.start_tokens
    {tokens : List Token}
    {c : Char}
    {l : Lexer}
    (hStart : Lexer.start tokens c = some l) :
    tokens <:+ l.tokens := by
  rw [start] at hStart
  split at hStart
  · cases hStart
    exact List.suffix_refl _
  split at hStart
  · cases hStart
    exact List.suffix_refl _
  split at hStart
  · cases hStart
    exact List.suffix_refl _
  split at hStart
  · cases hStart
    exact List.suffix_refl _
  · rcases Option.map_eq_some_iff.mp hStart with ⟨token, -, rfl⟩
    exact List.suffix_cons token tokens

theorem Lexer.step_tokens
    {l l' : Lexer}
    {c : Char}
    (hStep : l.step c = some l') :
    l.tokens <:+ l'.tokens := by
  rcases l with ⟨mode, tokens⟩
  cases mode with
  | between => exact start_tokens hStep
  | word cs =>
      simp only [step] at hStep
      split at hStep
      · cases hStep
        exact List.suffix_refl _
      · rcases Option.bind_eq_some_iff.mp hStep with ⟨token, -, hStart⟩
        exact (List.suffix_cons token tokens).trans
          (start_tokens hStart)
  | number cs =>
      simp only [step] at hStep
      split at hStep
      · cases hStep
        exact List.suffix_refl _
      · rcases Option.bind_eq_some_iff.mp hStep with ⟨token, -, hStart⟩
        exact (List.suffix_cons token tokens).trans
          (start_tokens hStart)
  | text us =>
      simp only [step] at hStep
      split at hStep
      · cases hStep
        exact List.suffix_cons _ tokens
      split at hStep
      · cases hStep
        exact List.suffix_refl _
      split at hStep
      · cases hStep
      · cases hStep
        exact List.suffix_refl _
  | escape us =>
      simp only [step] at hStep
      split at hStep
      · cases hStep
        exact List.suffix_refl _
      · rcases Option.map_eq_some_iff.mp hStep with ⟨e, -, rfl⟩
        exact List.suffix_refl _
  | hex us ds =>
      rcases Option.map_eq_some_iff.mp hStep with ⟨d, -, rfl⟩
      split
      · exact List.suffix_refl _
      · exact List.suffix_refl _

theorem Lexer.finish_tokens
    {l : Lexer}
    {tokens : List Token}
    (hFinish : l.finish = some tokens) :
    l.tokens.reverse <+: tokens := by
  rcases l with ⟨mode, before⟩
  cases mode with
  | between =>
      cases hFinish
      exact List.prefix_refl _
  | word cs =>
      rcases Option.map_eq_some_iff.mp hFinish with ⟨token, -, rfl⟩
      rw [List.reverse_cons]
      exact List.prefix_append _ _
  | number cs =>
      rcases Option.map_eq_some_iff.mp hFinish with ⟨token, -, rfl⟩
      rw [List.reverse_cons]
      exact List.prefix_append _ _
  | text us => cases hFinish
  | escape us => cases hFinish
  | hex us ds => cases hFinish

theorem readTokens_bracket
    {cs : List Char}
    {tokens : List Token}
    (hRead : readTokens ('[' :: cs) = some tokens) :
    ∃ rest, tokens = .openArr :: rest := by
  rw [readTokens, List.foldlM_cons] at hRead
  rcases Option.bind_eq_some_iff.mp hRead with ⟨l, hRun, hFinish⟩
  have hOpened :
      cs.foldlM Lexer.step ⟨.between, [.openArr]⟩ = some l :=
    hRun
  have hSteps :
      ∀ (l : Lexer) c l', [Token.openArr] <:+ l.tokens →
        l.step c = some l' → [Token.openArr] <:+ l'.tokens := by
    intro l c l' hTokens hStep
    exact hTokens.trans (Lexer.step_tokens hStep)
  have hKept := foldlM_keeps hSteps (List.suffix_refl _) hOpened
  have hPrefix := (List.reverse_prefix.mpr hKept).trans
    (Lexer.finish_tokens hFinish)
  rcases hPrefix with ⟨rest, rfl⟩
  exact ⟨rest, rfl⟩

/- The array that was opened first is open, or complete. -/
def Builder.InArray (b : Builder) : Prop :=
  (∃ items, b.stack.getLast? = some (.arr items)) ∨
    (b.stack = [] ∧ ∃ items, b.expected = .after (.arr items))

/- A frame was taken off whose value is `v`. -/
theorem Builder.inArray_pop
    {frame : Frame}
    {stack : List Frame}
    {expected : Expected}
    (hStack : ∃ items, (frame :: stack).getLast? = some (.arr items))
    (hClosed :
      ∀ items, frame = .arr items →
        ∃ items, expected = .after (.arr items)) :
    Builder.InArray ⟨expected, stack⟩ := by
  rcases hStack with ⟨items, hLast⟩
  cases stack with
  | nil =>
      rw [List.getLast?_singleton, Option.some.injEq] at hLast
      exact Or.inr ⟨rfl, hClosed items hLast⟩
  | cons next stack =>
      rw [List.getLast?_cons_cons] at hLast
      exact Or.inl ⟨items, hLast⟩

/- A frame was put on. -/
theorem Builder.inArray_push
    {frame : Frame}
    {stack : List Frame}
    {expected : Expected}
    (hStack : ∃ items, stack.getLast? = some (.arr items)) :
    Builder.InArray ⟨expected, frame :: stack⟩ := by
  rcases hStack with ⟨items, hLast⟩
  refine Or.inl ⟨items, ?_⟩
  rw [List.getLast?_cons, hLast, Option.getD_some]

/- An item was added to the array on top. -/
theorem Builder.inArray_item
    {items items' : List Json}
    {stack : List Frame}
    {expected : Expected}
    (hStack :
      ∃ items, (.arr items' :: stack).getLast? = some (.arr items)) :
    Builder.InArray ⟨expected, .arr items :: stack⟩ := by
  rcases hStack with ⟨others, hLast⟩
  cases stack with
  | nil => exact Or.inl ⟨items, rfl⟩
  | cons next stack =>
      rw [List.getLast?_cons_cons] at hLast
      refine Or.inl ⟨others, ?_⟩
      rw [List.getLast?_cons_cons, hLast]

theorem Builder.inArray_open
    {stack : List Frame}
    {token : Token}
    {b : Builder}
    (hStack : ∃ items, stack.getLast? = some (.arr items))
    (hOpen : open_ stack token = some b) :
    b.InArray := by
  cases token with
  | scalar v =>
      cases hOpen
      exact Or.inl hStack
  | text s =>
      cases hOpen
      exact Or.inl hStack
  | openArr =>
      cases hOpen
      exact inArray_push hStack
  | openObj =>
      cases hOpen
      exact Or.inl hStack
  | closeArr => cases hOpen
  | closeObj => cases hOpen
  | comma => cases hOpen
  | colon => cases hOpen

/- A frame is taken off whenever a value is complete. -/
theorem Builder.step_inArray
    {b b' : Builder}
    {token : Token}
    (hArray : b.InArray)
    (hStep : b.step token = some b') :
    b'.InArray := by
  rcases b with ⟨expected, stack⟩
  rcases hArray with hStack | ⟨hEmpty, items, hExpected⟩
  · dsimp only at hStack
    cases expected with
    | value => exact inArray_open hStack hStep
    | first =>
        by_cases hClose : token = .closeArr
        · subst hClose
          cases hStep
          cases stack with
          | nil => simp at hStack
          | cons frame stack =>
              exact inArray_pop hStack fun _ _ => ⟨[], rfl⟩
        · have hOpen : open_ stack token = some b' := by
            simpa [step, hClose] using hStep
          exact inArray_open hStack hOpen
    | firstKey =>
        cases token with
        | closeObj =>
            cases hStep
            exact Or.inl hStack
        | text s =>
            cases hStep
            exact Or.inl hStack
        | _ => cases hStep
    | key members =>
        cases token with
        | text s =>
            cases hStep
            exact Or.inl hStack
        | _ => cases hStep
    | colon members key =>
        cases token with
        | colon =>
            cases hStep
            exact inArray_push hStack
        | _ => cases hStep
    | after v =>
        cases stack with
        | nil => simp at hStack
        | cons frame stack =>
            cases frame with
            | arr items =>
                cases token with
                | comma =>
                    cases hStep
                    exact inArray_item hStack
                | closeArr =>
                    cases hStep
                    exact inArray_pop hStack fun _ _ => ⟨_, rfl⟩
                | _ => cases hStep
            | obj members key =>
                cases token with
                | comma =>
                    cases hStep
                    exact inArray_pop hStack (by simp)
                | closeObj =>
                    cases hStep
                    exact inArray_pop hStack (by simp)
                | _ => cases hStep
  · dsimp only at hEmpty hExpected
    subst hEmpty hExpected
    cases hStep

/- A text that starts with a bracket is an array, or no JSON text. -/
theorem parse_bracket
    {s : String}
    {v : Json}
    (hStart : s.toList.head? = some '[')
    (hParse : parse s = some v) :
    ∃ items, v = .arr items := by
  cases hText : s.toList with
  | nil => simp [hText] at hStart
  | cons c cs =>
      rw [hText, List.head?_cons, Option.some.injEq] at hStart
      subst hStart
      rw [parse, hText] at hParse
      rcases Option.bind_eq_some_iff.mp hParse with
        ⟨tokens, hRead, hValue⟩
      rcases readTokens_bracket hRead with ⟨rest, rfl⟩
      rcases Option.bind_eq_some_iff.mp hValue with
        ⟨b, hRun, hFinish⟩
      have hOpened :
          rest.foldlM Builder.step ⟨.first, [.arr []]⟩ = some b :=
        hRun
      have hArray : b.InArray :=
        foldlM_keeps (fun _ _ _ => Builder.step_inArray)
          (Or.inl ⟨[], rfl⟩) hOpened
      rcases b with ⟨expected, stack⟩
      rcases hArray with ⟨items, hLast⟩ | ⟨hEmpty, items, hExpected⟩
      · cases stack with
        | nil => simp at hLast
        | cons frame stack => cases expected <;> cases hFinish
      · dsimp only at hEmpty hExpected
        subst hEmpty hExpected
        cases hFinish
        exact ⟨items, rfl⟩

end Json
