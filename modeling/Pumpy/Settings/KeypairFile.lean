import Pumpy.Settings.WalletKey

/-
  The text a keypair is written to its file as, and what the
  readers of the engine get back from it.

  Key definitions include:
    * `bytesToString`
    * `byteJson`

  The main result is `asBytes_bytesToString`: the bytes that are
  read are those that were written.
-/

------------------------------------------------------------
-- Writing
------------------------------------------------------------

namespace Pumpy

/- A byte in decimal. -/
def byteDigits (b : UInt8) : List Char :=
  Nat.toDigits 10 b.toNat

/- `serde_json::to_string` of a `Vec<u8>`. -/
def bytesToString (bytes : List UInt8) : String :=
  String.ofList
    ('[' :: ([','].intercalate (bytes.map byteDigits) ++ [']']))

/- The value a byte is read as. -/
def byteJson (b : UInt8) : Json :=
  .num { neg := false, whole := byteDigits b, frac := [], exponent := none }

/- What follows the first item of an array of bytes. -/
def laterTokens (bytes : List UInt8) : List Json.Token :=
  bytes.flatMap (fun b => [.comma, .scalar (byteJson b)]) ++ [.closeArr]

------------------------------------------------------------
-- Digits
------------------------------------------------------------

section Digits

variable {b : UInt8} {c : Char}

theorem isDigit_of_mem_byteDigits
    (hMem : c ∈ byteDigits b) :
    c.isDigit = true :=
  Nat.isDigit_of_mem_toDigits (by omega) (by omega) hMem

theorem byteDigits_ne_nil (b : UInt8) : byteDigits b ≠ [] :=
  Nat.toDigits_ne_nil

theorem natOfDigits_byteDigits (b : UInt8) :
    natOfDigits (byteDigits b) = b.toNat :=
  natOfDigits_toDigits b.toNat

/- Only the number zero begins with a zero. -/
theorem length_of_leading_zero
    (hZero : (byteDigits b).head? = some '0') :
    (byteDigits b).length = 1 := by
  have hAll :
      ∀ n < 256, (Nat.toDigits 10 n).head? = some '0' →
        (Nat.toDigits 10 n).length = 1 := by
    decide +kernel
  exact hAll b.toNat b.toNat_lt hZero

end Digits

------------------------------------------------------------
-- Reading
------------------------------------------------------------

/- The digits of a byte are the number they stand for. -/
theorem readNumber_byteDigits (b : UInt8) :
    Json.readNumber (byteDigits b) = some (.scalar (byteJson b)) := by
  have hDigits : ∀ c ∈ byteDigits b, c.isDigit = true :=
    fun _ => isDigit_of_mem_byteDigits
  have hSpan :
      (byteDigits b).span Char.isDigit = (byteDigits b, []) := by
    rw [List.span_eq_takeWhile_dropWhile,
      List.takeWhile_eq_self_iff.mpr hDigits,
      List.dropWhile_eq_nil_iff.mpr hDigits]
  have hWhole :
      ¬(byteDigits b = [] ∨
        ((byteDigits b).head? = some '0' ∧
          (byteDigits b).length ≠ 1)) := by
    rintro (hEmpty | ⟨hZero, hLong⟩)
    · exact byteDigits_ne_nil b hEmpty
    · exact hLong (length_of_leading_zero hZero)
  have hUnsigned :
      ∀ cs, byteDigits b ≠ '-' :: cs := by
    intro cs hMinus
    have hSign := hDigits '-' (hMinus ▸ List.mem_cons_self)
    exact absurd hSign (by decide)
  unfold Json.readNumber
  split
  rename_i neg cs hSign
  split at hSign
  · rename_i rest hMinus
    exact absurd hMinus (hUnsigned rest)
  · cases hSign
    simp only [hSpan, if_neg hWhole, Json.readFraction, parseExponent,
      Option.bind_eq_bind, Option.bind_some, byteJson, if_true]
    rfl

/- In a number, every digit is added to it. -/
theorem foldlM_digits
    {ds cs : List Char}
    {tokens : List Json.Token}
    (hDigits : ∀ c ∈ ds, c.isDigit = true) :
    ds.foldlM Json.Lexer.step ⟨.number cs, tokens⟩ =
      some ⟨.number (ds.reverse ++ cs), tokens⟩ := by
  induction ds generalizing cs with
  | nil => rfl
  | cons d ds ih =>
      have hDigit := hDigits d List.mem_cons_self
      have hChar : Js.isDecimalChar d = true := by
        simp [Js.isDecimalChar, hDigit]
      rw [List.foldlM_cons, Json.Lexer.step]
      simp only [hChar, if_true, Option.bind_eq_bind, Option.bind_some]
      rw [ih fun c hMem => hDigits c (List.mem_cons_of_mem d hMem),
        List.reverse_cons, List.append_assoc, List.singleton_append]

/- A digit between two tokens begins a number. -/
theorem start_digit
    {c : Char}
    (tokens : List Json.Token)
    (hDigit : c.isDigit = true) :
    Json.Lexer.start tokens c = some ⟨.number [c], tokens⟩ := by
  have hForeign :
      ∀ d : Char, d.isDigit = false → c ≠ d := by
    rintro d hOther rfl
    rw [hDigit] at hOther
    cases hOther
  have hSpace : Json.isSpace c = false := by
    simp [Json.isSpace, hForeign ' ' (by decide),
      hForeign '\t' (by decide), hForeign '\n' (by decide),
      hForeign '\r' (by decide)]
  have hWord : Json.isWordChar c = false := by
    have hRange : c.val ≥ '0'.val ∧ c.val ≤ '9'.val := by
      simpa [Char.isDigit] using hDigit
    have hSmall : ¬ 'a' ≤ c := fun hLetter =>
      absurd (UInt32.le_trans hLetter hRange.2) (by decide)
    simp [Json.isWordChar, hSmall]
  rw [Json.Lexer.start, hSpace, hWord]
  simp [hForeign '"' (by decide), hDigit]

/- A number ends with a comma or with the end of the array. -/
theorem step_delimiter
    {c : Char}
    {token : Json.Token}
    (b : UInt8)
    (tokens : List Json.Token)
    (hDelimiter :
      c = ',' ∧ token = .comma ∨ c = ']' ∧ token = .closeArr) :
    Json.Lexer.step ⟨.number (byteDigits b).reverse, tokens⟩ c =
      some ⟨.between, token :: .scalar (byteJson b) :: tokens⟩ := by
  have hNumber :
      Json.readNumber (byteDigits b).reverse.reverse =
        some (.scalar (byteJson b)) := by
    rw [List.reverse_reverse, readNumber_byteDigits]
  simp only [Json.Lexer.step, hNumber, Option.bind_some]
  rcases hDelimiter with ⟨rfl, rfl⟩ | ⟨rfl, rfl⟩
  · rfl
  · rfl

/- A byte and what ends it are two tokens. -/
theorem foldlM_byte
    {c : Char}
    {token : Json.Token}
    (b : UInt8)
    (rest : List Char)
    (tokens : List Json.Token)
    (hDelimiter :
      c = ',' ∧ token = .comma ∨ c = ']' ∧ token = .closeArr) :
    (byteDigits b ++ c :: rest).foldlM Json.Lexer.step
        ⟨.between, tokens⟩ =
      rest.foldlM Json.Lexer.step
        ⟨.between, token :: .scalar (byteJson b) :: tokens⟩ := by
  have hEnd := step_delimiter b tokens hDelimiter
  have hDigits : ∀ c ∈ byteDigits b, c.isDigit = true :=
    fun _ => isDigit_of_mem_byteDigits
  cases hText : byteDigits b with
  | nil => exact absurd hText (byteDigits_ne_nil b)
  | cons d ds =>
      rw [hText] at hEnd hDigits
      have hBegin := start_digit tokens (hDigits d List.mem_cons_self)
      rw [List.cons_append, List.foldlM_cons, Json.Lexer.step, hBegin,
        Option.bind_eq_bind, Option.bind_some, List.foldlM_append,
        foldlM_digits fun c hMem =>
          hDigits c (List.mem_cons_of_mem d hMem),
        Option.bind_eq_bind, Option.bind_some, List.foldlM_cons,
        ← List.reverse_cons, hEnd]
      rfl

/- What is between the brackets, and the closing one. -/
theorem foldlM_items
    (b : UInt8)
    (bytes : List UInt8)
    (tokens : List Json.Token) :
    ([','].intercalate ((b :: bytes).map byteDigits) ++ [']']).foldlM
        Json.Lexer.step ⟨.between, tokens⟩ =
      some ⟨.between,
        (.scalar (byteJson b) :: laterTokens bytes).reverse ++
          tokens⟩ := by
  induction bytes generalizing b tokens with
  | nil =>
      rw [List.map_singleton, List.intercalate_singleton,
        foldlM_byte b [] tokens (.inr ⟨rfl, rfl⟩)]
      rfl
  | cons next bytes ih =>
      rw [List.map_cons, List.map_cons, List.intercalate_cons_cons,
        List.append_assoc, List.append_assoc, List.singleton_append,
        foldlM_byte b _ tokens (.inl ⟨rfl, rfl⟩), ← List.map_cons, ih]
      simp [laterTokens]

theorem readTokens_bytes (bytes : List UInt8) :
    Json.readTokens (bytesToString bytes).toList =
      some (.openArr ::
        match bytes with
        | [] => [.closeArr]
        | b :: rest => .scalar (byteJson b) :: laterTokens rest) := by
  rw [Json.readTokens, bytesToString, String.toList_ofList,
    List.foldlM_cons]
  have hOpen :
      Json.Lexer.step ⟨.between, []⟩ '[' =
        some ⟨.between, [.openArr]⟩ := rfl
  rw [hOpen, Option.bind_eq_bind, Option.bind_some]
  cases bytes with
  | nil => rfl
  | cons b rest =>
      rw [foldlM_items, Option.bind_some, Json.Lexer.finish]
      simp

/- The rest of an array, after its first item. -/
theorem foldlM_laterTokens
    (v : Json)
    (items : List Json)
    (bytes : List UInt8) :
    (laterTokens bytes).foldlM Json.Builder.step
        ⟨.after v, [.arr items]⟩ =
      some ⟨.after
        (.arr ((v :: items).reverse ++ bytes.map byteJson)), []⟩ := by
  induction bytes generalizing v items with
  | nil =>
      rw [List.map_nil, List.append_nil]
      rfl
  | cons b bytes ih =>
      have hNext :
          laterTokens (b :: bytes) =
            .comma :: .scalar (byteJson b) :: laterTokens bytes := rfl
      have hComma :
          Json.Builder.step ⟨.after v, [.arr items]⟩ .comma =
            some ⟨.value, [.arr (v :: items)]⟩ := rfl
      have hItem :
          Json.Builder.step ⟨.value, [.arr (v :: items)]⟩
              (.scalar (byteJson b)) =
            some ⟨.after (byteJson b), [.arr (v :: items)]⟩ := rfl
      rw [hNext, List.foldlM_cons, hComma, Option.bind_eq_bind,
        Option.bind_some, List.foldlM_cons, hItem,
        Option.bind_eq_bind, Option.bind_some, ih]
      simp

/- The text is that of the array of the bytes. -/
theorem parse_bytesToString (bytes : List UInt8) :
    Json.parse (bytesToString bytes) =
      some (.arr (bytes.map byteJson)) := by
  rw [Json.parse, readTokens_bytes, Option.bind_some, Json.readValue,
    List.foldlM_cons]
  have hOpen :
      Json.Builder.step ⟨.value, []⟩ .openArr =
        some ⟨.first, [.arr []]⟩ := rfl
  rw [hOpen, Option.bind_eq_bind, Option.bind_some]
  cases bytes with
  | nil => rfl
  | cons b rest =>
      have hFirst :
          Json.Builder.step ⟨.first, [.arr []]⟩
              (.scalar (byteJson b)) =
            some ⟨.after (byteJson b), [.arr []]⟩ := rfl
      dsimp only
      rw [List.foldlM_cons, hFirst, Option.bind_eq_bind,
        Option.bind_some, foldlM_laterTokens]
      rfl

theorem asByte_byteJson (b : UInt8) :
    asByte (byteJson b) = some b := by
  have hSmall : natOfDigits (byteDigits b) < 256 := by
    rw [natOfDigits_byteDigits]
    exact b.toNat_lt
  rw [byteJson, asByte, if_pos ⟨⟨rfl, rfl, rfl⟩, hSmall⟩,
    natOfDigits_byteDigits, UInt8.ofNat_toNat]

/- The bytes that are read are those that were written. -/
theorem asBytes_bytesToString (bytes : List UInt8) :
    (Json.parse (bytesToString bytes)).bind asBytes = some bytes := by
  rw [parse_bytesToString, Option.bind_some, asBytes]
  induction bytes with
  | nil => rfl
  | cons b bytes ih =>
      rw [List.map_cons, List.mapM_cons, asByte_byteJson, ih]
      rfl

/- There is no white space around an array. -/
theorem trim_bytesToString (bytes : List UInt8) :
    trim (bytesToString bytes) = bytesToString bytes := by
  rw [trim, bytesToString, String.toList_ofList,
    List.dropWhile_cons_of_neg (by decide), ← List.cons_append,
    List.rdropWhile_concat_neg _ _ _ (by decide)]

end Pumpy
