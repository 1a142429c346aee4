import Pumpy.Api.Base58
import Pumpy.Numeric.Json
import Pumpy.Settings.Config

/-
  The wallet key of the environment, as the API server reads it
  (artifacts/api-server/src/routes/settings.ts) and as the
  engine does (rust-engine/src/config.rs).

  The engine's readers of JSON and base58 are crates: they are
  parameters, whose results are the bytes of an array of plain
  numbers and the bytes that the text is the base58 form of.

  Key definitions include:
    * `Js.uint8ArrayOf`
    * `deriveWalletPubkey`
    * `KeyCrates`
    * `loadKeypairBytes`
    * `SameKeys`

  The main result is `sameKeys_iff`.
-/

------------------------------------------------------------
-- Conversions
------------------------------------------------------------

namespace Js

mutual

/- `String(v)` does not throw: no object has its own `toString`. -/
def hasText : Json → Bool
  | .obj members => !members.any fun m => m.1 == "toString"
  | .arr items => haveText items
  | _ => true

def haveText : List Json → Bool
  | [] => true
  | v :: vs => hasText v && haveText vs

end

/-
  `Number(String(v))`, with the empty text for `null`, as it is
  in the text of an array; there is no number if it throws.  The
  text of a number is read back, and the text of two items or
  more has a comma.
-/
def textNumber : Json → Option F64
  | .null => some (.fin 0)
  | .bool _ => some .nan
  | .num n => some n.toF64
  | .str s => some (number s)
  | .arr [] => some (.fin 0)
  | .arr [item] => textNumber item
  | .arr items => if haveText items then some .nan else none
  | .obj members => if hasText (.obj members) then some .nan else none

/- `Number(v)`. -/
def toNumber : Json → Option F64
  | .bool b => some (.fin (if b then 1 else 0))
  | v => textNumber v

/- `ToIndex(x)`. -/
def toIndex : F64 → Option Nat
  | .nan => some 0
  | .inf _ => none
  | .fin q =>
      if 0 ≤ truncate q ∧ truncate q < 2 ^ 53 then
        some (truncate q).toNat
      else
        none

/- `ToLength(x)`. -/
def toLength : F64 → Nat
  | .nan => 0
  | .inf neg => if neg then 0 else 2 ^ 53 - 1
  | .fin q => min (truncate q).toNat (2 ^ 53 - 1)

/- `Number(members[key])`; of two members of one key the last counts. -/
def memberNumber
    (members : List (String × Json))
    (key : String) : Option F64 :=
  match members.reverse.lookup key with
  | some v => toNumber v
  | none => some .nan

/- `new Uint8Array(v)`; there is no array if it throws. -/
def uint8ArrayOf : Json → Option (List UInt8)
  | .arr items => items.mapM fun item => (toNumber item).map toUint8
  | .obj members => do
      let length ← memberNumber members "length"
      (List.range (toLength length)).mapM fun k =>
        (memberNumber members (toString k)).map toUint8
  | v => do
      let x ← toNumber v
      let length ← toIndex x
      return List.replicate length 0

end Js

namespace Pumpy

------------------------------------------------------------
-- The API server
------------------------------------------------------------

/- The files that can be read, by their paths. -/
abbrev Files := String → Option String

def pubkeyFromKeypairBytes (bytes : List UInt8) : Option String :=
  if bytes.length ≠ 64 then
    none
  else
    some (base58Encode ((bytes.drop 32).take 32))

structure WalletPubkey where
  pubkey : Option String
  source : Option String
deriving DecidableEq

/- `new Uint8Array(JSON.parse(text))`. -/
def parseUint8Array (text : String) : Option (List UInt8) :=
  (Json.parse text).bind Js.uint8ArrayOf

/- The bytes of a text without white space around it. -/
def keyBytes (trimmed : String) : Option (List UInt8) :=
  if trimmed.toList.head? = some '[' then
    parseUint8Array trimmed
  else
    (base58Decode trimmed).toOption

/- A variable that is not the empty text. -/
def truthyVar (env : Env) (name : String) : Option String :=
  (env name).filter (· ≠ "")

def deriveWalletPubkey (env : Env) (files : Files) : WalletPubkey :=
  match truthyVar env "WALLET_PRIVATE_KEY" with
  | some rawKey =>
      { pubkey := (keyBytes (Js.trim rawKey)).bind pubkeyFromKeypairBytes
        source := some "WALLET_PRIVATE_KEY" }
  | none =>
      match truthyVar env "KEYPAIR_PATH" with
      | some keypairPath =>
          let bytes :=
            (files keypairPath).bind fun raw =>
              parseUint8Array (Js.trim raw)
          { pubkey := bytes.bind pubkeyFromKeypairBytes
            source := some "KEYPAIR_PATH" }
      | none => { pubkey := none, source := none }

------------------------------------------------------------
-- The engine
------------------------------------------------------------

/- A number that can be a `u8`. -/
def asByte : Json → Option UInt8
  | .num n =>
      if n.Plain ∧ natOfDigits n.whole < 256 then
        some (UInt8.ofNat (natOfDigits n.whole))
      else
        none
  | _ => none

/- A value that can be a `Vec<u8>`. -/
def asBytes : Json → Option (List UInt8)
  | .arr items => items.mapM asByte
  | _ => none

/-
  The readers of the crates, with the texts of their errors:
  `serde_json::from_str` for a `Vec<u8>`, and
  `bs58::decode(..).into_vec()`.
-/
structure KeyCrates where
  fromStr : String → Except String (List UInt8)
  decode : String → Except String (List UInt8)
  fromStr_ok :
    ∀ text bytes,
      fromStr text = .ok bytes ↔
        (Json.parse text).bind asBytes = some bytes
  decode_ok :
    ∀ text bytes,
      decode text = .ok bytes ↔ standardBase58 bytes = text

/- What the engine makes of the text of a key. -/
def parseKey
    (crates : KeyCrates)
    (keyStr : String) : Except String (List UInt8) :=
  if keyStr.toList.head? = some '[' then do
    let bytes ← (crates.fromStr keyStr).mapError fun e =>
      "WALLET_PRIVATE_KEY: invalid JSON byte array — " ++ e
    if bytes.length ≠ 64 then
      .error ("WALLET_PRIVATE_KEY: expected 64 bytes, got " ++
        toString bytes.length ++ ". Export your full keypair " ++
        "(secret key + public key).")
    else
      .ok bytes
  else do
    let bytes ← (crates.decode keyStr).mapError fun e =>
      "WALLET_PRIVATE_KEY: invalid base58 — " ++ e
    if bytes.length ≠ 64 then
      .error ("WALLET_PRIVATE_KEY (base58): expected 64 bytes, got " ++
        toString bytes.length ++ ".")
    else
      .ok bytes

/- What the engine makes of the file of a key. -/
def readKeypair
    (crates : KeyCrates)
    (readToString : String → Except String String)
    (pathStr : String) : Except String (List UInt8) := do
  let data ← (readToString pathStr).mapError fun e =>
    "KEYPAIR_PATH '" ++ pathStr ++ "': cannot read file — " ++ e
  let bytes ← (crates.fromStr (trim data)).mapError fun e =>
    "KEYPAIR_PATH '" ++ pathStr ++ "': invalid JSON — " ++ e
  if bytes.length ≠ 64 then
    .error ("KEYPAIR_PATH '" ++ pathStr ++
      "': expected 64 bytes, got " ++ toString bytes.length ++ ".")
  else
    .ok bytes

def loadKeypairBytes
    (crates : KeyCrates)
    (env : Env)
    (readToString : String → Except String String) :
    Except String (List UInt8) :=
  match env "WALLET_PRIVATE_KEY" with
  | some keyStr => parseKey crates (trim keyStr)
  | none =>
      match env "KEYPAIR_PATH" with
      | some pathStr => readKeypair crates readToString pathStr
      | none =>
          .error ("Wallet not configured. Set either:\n  " ++
            "WALLET_PRIVATE_KEY — your base58 or JSON-array " ++
            "private key\n  KEYPAIR_PATH       — path to a Solana " ++
            "keypair JSON file")

------------------------------------------------------------
-- The property
------------------------------------------------------------

/-
  The two services accept the key or neither does, and they
  agree on the public half of it.
-/
structure SameKeys
    (crates : KeyCrates)
    (env : Env)
    (files : Files)
    (readToString : String → Except String String) : Prop where
  accepted :
    (deriveWalletPubkey env files).pubkey ≠ none ↔
      ∃ bytes, loadKeypairBytes crates env readToString = .ok bytes
  pubkey :
    ∀ bytes, loadKeypairBytes crates env readToString = .ok bytes →
      (deriveWalletPubkey env files).pubkey =
        some (standardBase58 ((bytes.drop 32).take 32))

------------------------------------------------------------
-- Items one by one
------------------------------------------------------------

section Items

variable {α β : Type} {f g : α → Option β} {xs : List α} {ys : List β}

theorem length_mapM (hMap : xs.mapM f = some ys) :
    ys.length = xs.length := by
  induction xs generalizing ys with
  | nil =>
      cases hMap
      rfl
  | cons x xs ih =>
      rw [List.mapM_cons] at hMap
      rcases Option.bind_eq_some_iff.mp hMap with ⟨y, -, hMap⟩
      rcases Option.bind_eq_some_iff.mp hMap with ⟨rest, hRest, hMap⟩
      cases hMap
      rw [List.length_cons, List.length_cons, ih hRest]

theorem isSome_mapM_iff :
    (xs.mapM f).isSome ↔ ∀ x ∈ xs, (f x).isSome := by
  induction xs with
  | nil => simp
  | cons x xs ih =>
      rw [List.mapM_cons, List.forall_mem_cons, ← ih]
      cases f x <;> cases xs.mapM f <;> simp

/- What one function gives on every item, the other gives too. -/
theorem mapM_eq_some_of
    (hSame : ∀ x ∈ xs, ∀ y, f x = some y → g x = some y)
    (hMap : xs.mapM f = some ys) :
    xs.mapM g = some ys := by
  induction xs generalizing ys with
  | nil => exact hMap
  | cons x xs ih =>
      rw [List.forall_mem_cons] at hSame
      rw [List.mapM_cons] at hMap
      rcases Option.bind_eq_some_iff.mp hMap with ⟨y, hItem, hMap⟩
      rcases Option.bind_eq_some_iff.mp hMap with ⟨rest, hRest, hMap⟩
      cases hMap
      rw [List.mapM_cons, hSame.1 y hItem, ih hSame.2 hRest]
      rfl

end Items

------------------------------------------------------------
-- Texts of keys
------------------------------------------------------------

def Bracketed (text : String) : Prop :=
  text.toList.head? = some '['

/- The base58 form of 64 bytes. -/
def Base58Of64 (text : String) : Prop :=
  ∃ bytes : List UInt8, bytes.length = 64 ∧
    standardBase58 bytes = text

/- An array of 64 items that can be made numbers. -/
def ArrayOf64 (text : String) : Prop :=
  ∃ items, Json.parse text = some (.arr items) ∧ items.length = 64 ∧
    ∀ item ∈ items, (Js.toNumber item).isSome

/- An array of 64 integers from 0 to 255, written in digits only. -/
def BytesOf64 (text : String) : Prop :=
  ∃ items, Json.parse text = some (.arr items) ∧ items.length = 64 ∧
    ∀ item ∈ items, (asByte item).isSome

/- A byte, written in digits only, is the same in both. -/
theorem toUint8_of_asByte
    {item : Json}
    {byte : UInt8}
    (hByte : asByte item = some byte) :
    (Js.toNumber item).map Js.toUint8 = some byte := by
  cases item with
  | num n =>
      simp only [asByte] at hByte
      split at hByte
      · rename_i hDigits
        cases hByte
        have hValue : n.toF64 = .fin (natOfDigits n.whole) :=
          JsonNumber.toF64_of_plain hDigits.1 (by omega)
        have hNumber : Js.toNumber (.num n) = some n.toF64 := rfl
        rw [hNumber, hValue, Option.map_some, Js.toUint8_natCast]
      · cases hByte
  | null => cases hByte
  | bool b => cases hByte
  | str s => cases hByte
  | arr items => cases hByte
  | obj members => cases hByte

theorem arrayOf64_of_bytesOf64
    {text : String}
    (hBytes : BytesOf64 text) :
    ArrayOf64 text := by
  rcases hBytes with ⟨items, hParse, hLength, hItems⟩
  refine ⟨items, hParse, hLength, fun item hMem => ?_⟩
  rcases Option.isSome_iff_exists.mp (hItems item hMem) with
    ⟨byte, hByte⟩
  have hNumber := toUint8_of_asByte hByte
  rw [← Option.isSome_map, hNumber, Option.isSome_some]

/- No base58 text starts with a bracket. -/
theorem not_bracketed
    {text : String}
    (hBase58 : Base58Of64 text) :
    ¬Bracketed text := by
  rcases hBase58 with ⟨bytes, hLength, rfl⟩
  have hNe : bytes ≠ [] := by
    rintro rfl
    cases hLength
  intro hBracket
  rw [← base58Encode_standard hNe] at hBracket
  have hMem := base58Encode_chars hNe _ (List.mem_of_head? hBracket)
  exact absurd hMem (by decide +kernel)

/- Only no bytes at all are written as the empty text. -/
theorem standardBase58_eq_empty_iff
    {bytes : List UInt8} :
    standardBase58 bytes = "" ↔ bytes = [] := by
  constructor
  · intro hText
    by_contra hNe
    rw [← base58Encode_standard hNe] at hText
    exact base58Encode_ne_empty hNe hText
  · rintro rfl
    decide +kernel

/- The server's decoder reads standard base58, but the empty text. -/
theorem base58Decode_iff
    {text : String}
    (hText : text ≠ "")
    {bytes : List UInt8} :
    base58Decode text = .ok bytes ↔ standardBase58 bytes = text := by
  constructor
  · intro hDecode
    have hChars : ∀ c ∈ text.toList, c ∈ base58Alphabet := by
      by_contra hForeign
      push Not at hForeign
      rcases (base58Decode_isError_iff text).mpr hForeign with
        ⟨message, hError⟩
      rw [hDecode] at hError
      cases hError
    have hBack := base58Encode_decode hText hChars
    rw [hDecode] at hBack
    have hEncode := Except.ok.inj hBack
    have hNe : bytes ≠ [] := by
      rintro rfl
      have hOne : base58Encode [] = "1" ∧
          base58Decode "1" = .ok [0] := by
        decide +kernel
      rw [← hEncode, hOne.1, hOne.2] at hDecode
      cases hDecode
    rw [← base58Encode_standard hNe]
    exact hEncode
  · rintro rfl
    have hNe : bytes ≠ [] := by
      rwa [Ne, ← standardBase58_eq_empty_iff]
    rw [← base58Encode_standard hNe]
    exact base58Decode_encode hNe

theorem base58Decode_iff_of_length
    {text : String}
    {bytes : List UInt8}
    (hLength : bytes.length = 64) :
    base58Decode text = .ok bytes ↔ standardBase58 bytes = text := by
  by_cases hText : text = ""
  · have hEmpty : base58Decode "" = .ok [0] := by decide +kernel
    subst hText
    apply iff_of_false
    · rw [hEmpty]
      rintro ⟨⟩
      cases hLength
    · rw [standardBase58_eq_empty_iff]
      rintro rfl
      cases hLength
  · exact base58Decode_iff hText

------------------------------------------------------------
-- What each service accepts
------------------------------------------------------------

/- A text that makes a public key in the API server. -/
def ServerKey (text : String) : Prop :=
  (Bracketed text ∧ ArrayOf64 text) ∨ Base58Of64 text

/- A text that makes a keypair in the engine. -/
def EngineKey (text : String) : Prop :=
  (Bracketed text ∧ BytesOf64 text) ∨ Base58Of64 text

theorem uint8ArrayOf_length
    {text : String}
    (hBracket : Bracketed text) :
    (∃ bytes, parseUint8Array text = some bytes ∧ bytes.length = 64) ↔
      ArrayOf64 text := by
  constructor
  · rintro ⟨bytes, hBytes, hLength⟩
    rcases Option.bind_eq_some_iff.mp hBytes with ⟨v, hParse, hArray⟩
    rcases Json.parse_bracket hBracket hParse with ⟨items, rfl⟩
    refine ⟨items, hParse, ?_, fun item hMem => ?_⟩
    · rw [← length_mapM hArray, hLength]
    · have hSome := isSome_mapM_iff.mp (Option.isSome_of_eq_some hArray)
      simpa using hSome item hMem
  · rintro ⟨items, hParse, hLength, hItems⟩
    have hSome :
        (items.mapM fun item =>
          (Js.toNumber item).map Js.toUint8).isSome := by
      rw [isSome_mapM_iff]
      intro item hMem
      rw [Option.isSome_map]
      exact hItems item hMem
    rcases Option.isSome_iff_exists.mp hSome with ⟨bytes, hArray⟩
    refine ⟨bytes, ?_, ?_⟩
    · rw [parseUint8Array, hParse]
      exact hArray
    · rw [length_mapM hArray, hLength]

theorem keyBytes_bracketed
    {text : String}
    (hBracket : Bracketed text) :
    keyBytes text = parseUint8Array text :=
  if_pos hBracket

theorem keyBytes_base58
    {text : String}
    (hStart : ¬Bracketed text) :
    keyBytes text = (base58Decode text).toOption :=
  if_neg hStart

theorem toOption_eq_some
    {ε α : Type}
    {x : Except ε α}
    {a : α} :
    x.toOption = some a ↔ x = .ok a := by
  cases x with
  | error e => simp [Except.toOption]
  | ok b => simp [Except.toOption]

/- The server makes 64 bytes of exactly these texts. -/
theorem keyBytes_iff (text : String) :
    (∃ bytes, keyBytes text = some bytes ∧ bytes.length = 64) ↔
      ServerKey text := by
  by_cases hBracket : Bracketed text
  · rw [keyBytes_bracketed hBracket, uint8ArrayOf_length hBracket]
    constructor
    · intro hArray
      exact Or.inl ⟨hBracket, hArray⟩
    · rintro (⟨-, hArray⟩ | hBase58)
      · exact hArray
      · exact absurd hBracket (not_bracketed hBase58)
  · rw [keyBytes_base58 hBracket]
    constructor
    · rintro ⟨bytes, hDecode, hLength⟩
      have hOk := toOption_eq_some.mp hDecode
      exact Or.inr ⟨bytes, hLength, (base58Decode_iff_of_length hLength).mp hOk⟩
    · rintro (⟨hStart, -⟩ | ⟨bytes, hLength, hText⟩)
      · exact absurd hStart hBracket
      · have hOk := (base58Decode_iff_of_length hLength).mpr hText
        exact ⟨bytes, by rw [hOk]; rfl, hLength⟩

/- What the engine returns was read, and has 64 bytes. -/
theorem checked_eq_ok
    {read : Except String (List UInt8)}
    {wrap : String → String}
    {short : List UInt8 → String}
    {bytes : List UInt8} :
    (do
      let bytes ← read.mapError wrap
      if bytes.length ≠ 64 then
        .error (short bytes)
      else
        .ok bytes) = .ok bytes ↔
      bytes.length = 64 ∧ read = .ok bytes := by
  cases read with
  | error e =>
      apply iff_of_false
      · rintro ⟨⟩
      · rintro ⟨-, ⟨⟩⟩
  | ok found =>
      change (if found.length ≠ 64 then
        Except.error (short found) else .ok found) = .ok bytes ↔ _
      split
      · rename_i hShort
        apply iff_of_false
        · rintro ⟨⟩
        · rintro ⟨hLength, ⟨⟩⟩
          exact hShort hLength
      · rename_i hLength
        constructor
        · rintro ⟨⟩
          exact ⟨not_not.mp hLength, rfl⟩
        · rintro ⟨-, ⟨⟩⟩
          rfl

theorem parseKey_iff
    (crates : KeyCrates)
    (text : String)
    (bytes : List UInt8) :
    parseKey crates text = .ok bytes ↔
      bytes.length = 64 ∧
        ((Bracketed text ∧
            (Json.parse text).bind asBytes = some bytes) ∨
          (¬Bracketed text ∧ standardBase58 bytes = text)) := by
  rw [← crates.fromStr_ok, ← crates.decode_ok]
  by_cases hBracket : Bracketed text
  · have hStart : text.toList.head? = some '[' := hBracket
    rw [parseKey, if_pos hStart, checked_eq_ok]
    simp [hBracket]
  · have hStart : ¬text.toList.head? = some '[' := hBracket
    rw [parseKey, if_neg hStart, checked_eq_ok]
    simp [hBracket]

/- The engine makes 64 bytes of exactly these texts. -/
theorem parseKey_isOk_iff
    (crates : KeyCrates)
    (text : String) :
    (∃ bytes, parseKey crates text = .ok bytes) ↔ EngineKey text := by
  simp only [parseKey_iff]
  constructor
  · rintro ⟨bytes, hLength, ⟨hBracket, hRead⟩ | ⟨-, hText⟩⟩
    · rcases Option.bind_eq_some_iff.mp hRead with ⟨v, hParse, hBytes⟩
      rcases Json.parse_bracket hBracket hParse with ⟨items, rfl⟩
      refine Or.inl ⟨hBracket, items, hParse, ?_, ?_⟩
      · rw [← length_mapM hBytes, hLength]
      · exact isSome_mapM_iff.mp (Option.isSome_of_eq_some hBytes)
    · exact Or.inr ⟨bytes, hLength, hText⟩
  · rintro (⟨hBracket, items, hParse, hLength, hItems⟩ | hBase58)
    · rcases Option.isSome_iff_exists.mp (isSome_mapM_iff.mpr hItems)
        with ⟨bytes, hBytes⟩
      refine ⟨bytes, ?_, Or.inl ⟨hBracket, ?_⟩⟩
      · rw [length_mapM hBytes, hLength]
      · rw [hParse]
        exact hBytes
    · rcases hBase58 with ⟨bytes, hLength, hText⟩
      have hStart := not_bracketed ⟨bytes, hLength, hText⟩
      exact ⟨bytes, hLength, Or.inr ⟨hStart, hText⟩⟩

/- The server reads the same 64 bytes. -/
theorem keyBytes_of_parseKey
    {crates : KeyCrates}
    {text : String}
    {bytes : List UInt8}
    (hKey : parseKey crates text = .ok bytes) :
    keyBytes text = some bytes ∧ bytes.length = 64 := by
  rcases (parseKey_iff crates text bytes).mp hKey with
    ⟨hLength, ⟨hBracket, hRead⟩ | ⟨hStart, hText⟩⟩
  · refine ⟨?_, hLength⟩
    rcases Option.bind_eq_some_iff.mp hRead with ⟨v, hParse, hBytes⟩
    rcases Json.parse_bracket hBracket hParse with ⟨items, rfl⟩
    have hArray : Js.uint8ArrayOf (.arr items) = some bytes :=
      mapM_eq_some_of (fun _ _ _ => toUint8_of_asByte) hBytes
    rw [keyBytes_bracketed hBracket, parseUint8Array, hParse]
    exact hArray
  · refine ⟨?_, hLength⟩
    rw [keyBytes_base58 hStart,
      (base58Decode_iff_of_length hLength).mpr hText]
    rfl

------------------------------------------------------------
-- When both accept the same
------------------------------------------------------------

theorem serverKey_of_engineKey
    {text : String}
    (hEngine : EngineKey text) :
    ServerKey text := by
  rcases hEngine with ⟨hBracket, hBytes⟩ | hBase58
  · exact Or.inl ⟨hBracket, arrayOf64_of_bytesOf64 hBytes⟩
  · exact Or.inr hBase58

/- A key begins and ends in ASCII. -/
theorem asciiEnds_of_serverKey
    {text : String}
    (hServer : ServerKey text) :
    Js.AsciiEnds text.toList := by
  rcases hServer with ⟨hBracket, items, hParse, -, -⟩ | hBase58
  · have hStart : text.toList.head? = some '[' := hBracket
    constructor
    · intro hEmpty
      simp [hEmpty] at hStart
    · intro c hHead
      rw [hStart] at hHead
      cases hHead
      decide
    · intro c hLast
      by_contra hForeign
      rw [Json.parse_of_foreign (by omega) hLast] at hParse
      cases hParse
  · rcases hBase58 with ⟨bytes, hLength, rfl⟩
    have hNe : bytes ≠ [] := by
      rintro rfl
      cases hLength
    have hChars :
        ∀ c ∈ (standardBase58 bytes).toList, c.toNat < 0x80 := by
      have hAlphabet :
          base58Alphabet.all (fun c => c.toNat < 0x80) = true := by
        decide +kernel
      rw [← base58Encode_standard hNe]
      intro c hMem
      exact of_decide_eq_true
        (List.all_eq_true.mp hAlphabet c
          (base58Encode_chars hNe c hMem))
    constructor
    · rw [← base58Encode_standard hNe, Ne, String.toList_eq_nil_iff]
      exact base58Encode_ne_empty hNe
    · intro c hHead
      exact hChars c (List.mem_of_head? hHead)
    · intro c hLast
      exact hChars c (List.mem_of_getLast? hLast)

/- The file of `KEYPAIR_PATH` makes 64 bytes in the API server. -/
def FileKey (env : Env) (files : Files) : Prop :=
  ∃ path raw bytes,
    truthyVar env "KEYPAIR_PATH" = some path ∧
      files path = some raw ∧
        parseUint8Array (Js.trim raw) = some bytes ∧
          bytes.length = 64

/-
  What the environment has to be like: an empty key is not made
  up for by a file; a key has nothing around it that only one of
  the services takes for white space; and an array of 64 items
  has only bytes in it, written in digits.
-/
structure Agreeable
    (env : Env)
    (files : Files)
    (key : String) : Prop where
  nonempty : key = "" → ¬FileKey env files
  trimmed :
    Js.trim key ≠ trim key →
      ¬ServerKey (Js.trim key) ∧ ¬EngineKey (trim key)
  digits :
    Js.trim key = trim key → Bracketed (trim key) →
      ArrayOf64 (trim key) → BytesOf64 (trim key)

theorem pubkey_ne_none_iff
    {read : Option (List UInt8)} :
    read.bind pubkeyFromKeypairBytes ≠ none ↔
      ∃ bytes, read = some bytes ∧ bytes.length = 64 := by
  cases read with
  | none => simp
  | some bytes => simp [pubkeyFromKeypairBytes]

theorem derive_of_key
    {env : Env}
    {key : String}
    (hKey : env "WALLET_PRIVATE_KEY" = some key)
    (hNe : key ≠ "")
    (files : Files) :
    (deriveWalletPubkey env files).pubkey =
      (keyBytes (Js.trim key)).bind pubkeyFromKeypairBytes := by
  have hVar : truthyVar env "WALLET_PRIVATE_KEY" = some key := by
    simp [truthyVar, hKey, hNe]
  rw [deriveWalletPubkey, hVar]

/- An empty key is as if there were none, for the API server. -/
theorem derive_of_empty
    {env : Env}
    (hKey : env "WALLET_PRIVATE_KEY" = some "")
    (files : Files) :
    (deriveWalletPubkey env files).pubkey ≠ none ↔
      FileKey env files := by
  have hVar : truthyVar env "WALLET_PRIVATE_KEY" = none := by
    simp [truthyVar, hKey]
  rw [deriveWalletPubkey, hVar, FileKey]
  cases truthyVar env "KEYPAIR_PATH" with
  | none => simp
  | some path =>
      dsimp only
      rw [pubkey_ne_none_iff]
      cases hFile : files path with
      | none => simp [hFile]
      | some raw => simp [hFile]

theorem load_of_key
    {env : Env}
    {key : String}
    (hKey : env "WALLET_PRIVATE_KEY" = some key)
    (crates : KeyCrates)
    (readToString : String → Except String String) :
    loadKeypairBytes crates env readToString =
      parseKey crates (trim key) := by
  rw [loadKeypairBytes, hKey]

/- The empty text is no key. -/
theorem not_serverKey_empty : ¬ServerKey "" := by
  intro hServer
  exact (asciiEnds_of_serverKey hServer).nonempty (by simp)

/- Where both make 64 bytes, the public halves agree. -/
theorem pubkey_of_parseKey
    {crates : KeyCrates}
    {text : String}
    {bytes : List UInt8}
    (hKey : parseKey crates text = .ok bytes) :
    (keyBytes text).bind pubkeyFromKeypairBytes =
      some (standardBase58 ((bytes.drop 32).take 32)) := by
  rcases keyBytes_of_parseKey hKey with ⟨hRead, hLength⟩
  have hHalf : (bytes.drop 32).take 32 ≠ [] := by
    rw [Ne, ← List.length_eq_zero_iff, List.length_take,
      List.length_drop]
    omega
  rw [hRead, Option.bind_some, pubkeyFromKeypairBytes,
    if_neg (not_not.mpr hLength), base58Encode_standard hHalf]

section Services

variable {crates : KeyCrates} {env : Env} {files : Files}
variable {readToString : String → Except String String} {key : String}

theorem agreeable_of_sameKeys
    (hKey : env "WALLET_PRIVATE_KEY" = some key)
    (hSame : SameKeys crates env files readToString) :
    Agreeable env files key := by
  have hAccepted := hSame.accepted
  rw [load_of_key hKey, parseKey_isOk_iff] at hAccepted
  by_cases hNe : key = ""
  · subst hNe
    have hEmpty : ¬EngineKey (trim "") := by
      intro hEngine
      exact not_serverKey_empty (serverKey_of_engineKey hEngine)
    rw [derive_of_empty hKey] at hAccepted
    constructor
    · intro _ hFile
      exact hEmpty (hAccepted.mp hFile)
    · intro hTrims
      exact absurd (by decide) hTrims
    · intro _ hBracket hArray
      exact (not_serverKey_empty (Or.inl ⟨hBracket, hArray⟩)).elim
  · rw [derive_of_key hKey hNe, pubkey_ne_none_iff, keyBytes_iff]
      at hAccepted
    constructor
    · intro hEmpty
      exact absurd hEmpty hNe
    · intro hTrims
      -- Two texts that are both accepted would be the same text.
      have hOne : ¬(ServerKey (Js.trim key) ∧ EngineKey (trim key)) := by
        rintro ⟨hServer, hEngine⟩
        exact hTrims (Js.trim_eq_trim
          (asciiEnds_of_serverKey hServer)
          (asciiEnds_of_serverKey (serverKey_of_engineKey hEngine)))
      constructor
      · intro hServer
        exact hOne ⟨hServer, hAccepted.mp hServer⟩
      · intro hEngine
        exact hOne ⟨hAccepted.mpr hEngine, hEngine⟩
    · intro hTrims hBracket hArray
      rw [hTrims] at hAccepted
      rcases hAccepted.mp (Or.inl ⟨hBracket, hArray⟩) with
        ⟨-, hBytes⟩ | hBase58
      · exact hBytes
      · exact absurd hBracket (not_bracketed hBase58)

theorem sameKeys_of_agreeable
    (hKey : env "WALLET_PRIVATE_KEY" = some key)
    (hAgree : Agreeable env files key) :
    SameKeys crates env files readToString := by
  by_cases hNe : key = ""
  · subst hNe
    have hEmpty : ¬∃ bytes,
        loadKeypairBytes crates env readToString = .ok bytes := by
      rw [load_of_key hKey, parseKey_isOk_iff]
      intro hEngine
      exact not_serverKey_empty (serverKey_of_engineKey hEngine)
    constructor
    · rw [derive_of_empty hKey]
      exact iff_of_false (hAgree.nonempty rfl) hEmpty
    · intro bytes hLoad
      exact absurd ⟨bytes, hLoad⟩ hEmpty
  · have hServer := derive_of_key hKey hNe files
    have hAccepted :
        ServerKey (Js.trim key) ↔ EngineKey (trim key) := by
      by_cases hTrims : Js.trim key = trim key
      · rw [hTrims]
        constructor
        · rintro (⟨hBracket, hArray⟩ | hBase58)
          · exact Or.inl
              ⟨hBracket, hAgree.digits hTrims hBracket hArray⟩
          · exact Or.inr hBase58
        · exact serverKey_of_engineKey
      · rcases hAgree.trimmed hTrims with ⟨hNotServer, hNotEngine⟩
        exact iff_of_false hNotServer hNotEngine
    constructor
    · rw [hServer, pubkey_ne_none_iff, keyBytes_iff, load_of_key hKey,
        parseKey_isOk_iff]
      exact hAccepted
    · intro bytes hLoad
      rw [load_of_key hKey] at hLoad
      have hEngine : EngineKey (trim key) :=
        (parseKey_isOk_iff crates (trim key)).mp ⟨bytes, hLoad⟩
      have hTrims : Js.trim key = trim key := by
        by_contra hTrims
        exact (hAgree.trimmed hTrims).2 hEngine
      rw [hServer, hTrims]
      exact pubkey_of_parseKey hLoad

/-
  The services agree on a key exactly if the environment is
  agreeable.
-/
theorem sameKeys_iff
    (hKey : env "WALLET_PRIVATE_KEY" = some key) :
    SameKeys crates env files readToString ↔
      Agreeable env files key := by
  constructor
  · exact agreeable_of_sameKeys hKey
  · exact sameKeys_of_agreeable hKey

end Services

------------------------------------------------------------
-- A key of 64 bytes
------------------------------------------------------------

/- The readers, with one text for every error. -/
def plainCrates : KeyCrates where
  fromStr text :=
    match (Json.parse text).bind asBytes with
    | some bytes => .ok bytes
    | none => .error "invalid type"
  decode text :=
    if text = "" then
      .ok []
    else
      (base58Decode text).mapError fun _ => "invalid character"
  fromStr_ok text bytes := by
    cases (Json.parse text).bind asBytes with
    | none => simp
    | some found => simp
  decode_ok text bytes := by
    by_cases hText : text = ""
    · subst hText
      rw [standardBase58_eq_empty_iff, if_pos rfl]
      simp [eq_comm]
    · rw [if_neg hText, ← base58Decode_iff hText]
      cases base58Decode text with
      | error message => simp [Except.mapError]
      | ok found => simp [Except.mapError]

/- An array of 64 numbers that are zero but for the first one. -/
def arrayKey (first : List Char) : String :=
  String.ofList
    ('[' :: (first ++ (List.replicate 63 [',', '0']).flatten) ++ [']'])

/- An environment with this key and nothing else. -/
def keyEnv (key : String) : Env :=
  fun name => if name = "WALLET_PRIVATE_KEY" then some key else none

theorem arrayKey_trimmed (first : List Char) :
    Js.trim (arrayKey first) = arrayKey first ∧
      trim (arrayKey first) = arrayKey first := by
  constructor
  · rw [Js.trim, arrayKey, String.toList_ofList, List.cons_append,
      List.dropWhile_cons_of_neg (by decide), ← List.cons_append,
      List.rdropWhile_concat_neg _ _ _ (by decide)]
  · rw [trim, arrayKey, String.toList_ofList, List.cons_append,
      List.dropWhile_cons_of_neg (by decide), ← List.cons_append,
      List.rdropWhile_concat_neg _ _ _ (by decide)]

theorem arrayKey_bracketed (first : List Char) :
    Bracketed (arrayKey first) := by
  rw [Bracketed, arrayKey, String.toList_ofList]
  rfl

theorem parse_arrayKey (first : List Char) :
    Json.parse (arrayKey first) =
      (Json.readTokens
        ('[' :: (first ++ (List.replicate 63 [',', '0']).flatten) ++
          [']'])).bind Json.readValue := by
  rw [Json.parse, arrayKey, String.toList_ofList]

theorem arrayKey_ne_empty (first : List Char) :
    arrayKey first ≠ "" := by
  rw [arrayKey, Ne, ← String.toList_eq_nil_iff, String.toList_ofList]
  simp

/- Where every number is a byte, both services accept the array. -/
theorem sameKeys_bytes :
    SameKeys plainCrates (keyEnv (arrayKey ['7'])) (fun _ => none)
      (fun _ => .error "No such file or directory") := by
  rcases arrayKey_trimmed ['7'] with ⟨hServer, hEngine⟩
  have hRead :
      ((Json.parse (arrayKey ['7'])).bind asBytes).map List.length =
        some 64 := by
    rw [parse_arrayKey]
    decide +kernel
  rcases Option.map_eq_some_iff.mp hRead with ⟨bytes, hBytes, hLength⟩
  refine (sameKeys_iff (if_pos rfl)).mpr ⟨?_, ?_, ?_⟩
  · intro hEmpty
    exact absurd hEmpty (arrayKey_ne_empty _)
  · intro hTrims
    exact absurd (hServer.trans hEngine.symm) hTrims
  · intro _ hBracket _
    rw [hEngine] at hBracket ⊢
    have hKey := (parseKey_iff plainCrates _ bytes).mpr
      ⟨hLength, Or.inl ⟨hBracket, hBytes⟩⟩
    rcases (parseKey_isOk_iff plainCrates _).mp ⟨bytes, hKey⟩ with
      ⟨-, hBytes⟩ | hBase58
    · exact hBytes
    · exact absurd hBracket (not_bracketed hBase58)

/- The server takes 256 modulo 256, and the engine refuses it. -/
theorem sameKeys_fails :
    (deriveWalletPubkey (keyEnv (arrayKey ['2', '5', '6']))
        fun _ => none).pubkey ≠ none ∧
      ¬SameKeys plainCrates (keyEnv (arrayKey ['2', '5', '6']))
        (fun _ => none)
        (fun _ => .error "No such file or directory") := by
  have hKey :
      keyEnv (arrayKey ['2', '5', '6']) "WALLET_PRIVATE_KEY" =
        some (arrayKey ['2', '5', '6']) :=
    if_pos rfl
  rcases arrayKey_trimmed ['2', '5', '6'] with ⟨hServer, hEngine⟩
  have hBracket := arrayKey_bracketed ['2', '5', '6']
  have hDerived :
      (deriveWalletPubkey (keyEnv (arrayKey ['2', '5', '6']))
        fun _ => none).pubkey ≠ none := by
    have hArray :
        (parseUint8Array (arrayKey ['2', '5', '6'])).map List.length =
          some 64 := by
      rw [parseUint8Array, parse_arrayKey]
      decide +kernel
    rw [derive_of_key hKey (arrayKey_ne_empty _), pubkey_ne_none_iff,
      hServer, keyBytes_bracketed hBracket]
    exact Option.map_eq_some_iff.mp hArray
  refine ⟨hDerived, fun hSame => ?_⟩
  have hNone :
      (Json.parse (arrayKey ['2', '5', '6'])).bind asBytes = none := by
    rw [parse_arrayKey]
    decide +kernel
  rcases hSame.accepted.mp hDerived with ⟨bytes, hLoad⟩
  rw [load_of_key hKey, hEngine, parseKey_iff] at hLoad
  rcases hLoad with ⟨-, ⟨-, hRead⟩ | ⟨hStart, -⟩⟩
  · rw [hNone] at hRead
    cases hRead
  · exact hStart hBracket

end Pumpy
