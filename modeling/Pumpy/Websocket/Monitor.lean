import Pumpy.Api.Base58
import Pumpy.Engine.Types
import Pumpy.Numeric.Text

/-
  The WebSocket monitor (rust-engine/src/websocket.rs): what it
  publishes about the logs of transactions and about updates of
  the program's accounts.

  Key definitions include:
    * `Notification`
    * `parseCreateEvent`
    * `published`
    * `Creates`
    * `Carries`

  The main result is `mint_published_iff`: a published event has
  the mint of a token that the transaction created exactly if
  the first data of its logs has that mint where it is looked
  for.
-/

namespace Pumpy

namespace Websocket

------------------------------------------------------------
-- Notifications and Events
------------------------------------------------------------

structure TokenDiscoveredEvent where
  mint : String
  name : String
  symbol : String
  uri : String
  creator : String
  bondingCurve : String
  timestamp : ℤ
  virtualSolReserves : UInt64
  virtualTokenReserves : UInt64
deriving DecidableEq

/- What the two subscriptions receive. -/
inductive Notice where
  -- `logsSubscribe`
  | logs (signature : String) (lines : List String)
  -- `programSubscribe`
  | account (pubkey : String)
deriving DecidableEq

/- A notice, and when it is received. -/
structure Notification where
  notice : Notice
  now : ℤ
deriving DecidableEq

------------------------------------------------------------
-- Logs
------------------------------------------------------------

/- `l.contains(pat)`. -/
def contains (l pat : String) : Bool :=
  containsText pat.toList l.toList

/- `pat` is taken off the front, at most so many times. -/
def dropPrefixes (pat : List Char) : ℕ → List Char → List Char
  | 0, cs => cs
  | n + 1, cs =>
      if pat.isPrefixOf cs then
        dropPrefixes pat n (cs.drop pat.length)
      else
        cs

/- `l.trim_start_matches(pat)`, for a `pat` that is not empty. -/
def trimStartMatches (l pat : String) : String :=
  String.ofList (dropPrefixes pat.toList l.toList.length l.toList)

/- `l.starts_with(pat)`. -/
def startsWith (l pat : String) : Bool :=
  pat.toList.isPrefixOf l.toList

def isTokenCreate (lines : List String) : Bool :=
  lines.any fun l => contains l "Create" || contains l "InitializeMint"

/-
  The mint in the first line of data, if it can be decoded: the
  bytes 8 to 40, as base58.  `decode` is `base64::decode`.
-/
def dataMint
    (decode : String → Option (List UInt8))
    (lines : List String) : Option String :=
  match lines.find? (startsWith · "Program data: ") with
  | some l =>
      match decode (trimStartMatches l "Program data: ") with
      | some bytes =>
          if 40 ≤ bytes.length then
            some (standardBase58 ((bytes.drop 8).take 32))
          else
            none
      | none => none
  | none => none

/- `&sig[..8]`, of a signature in base58. -/
def shortSignature (signature : String) : String :=
  String.ofList (signature.toList.take 8)

/- `parse_create_event(logs, sig)`. -/
def parseCreateEvent
    (decode : String → Option (List UInt8))
    (lines : List String)
    (signature : String)
    (now : ℤ) : Option TokenDiscoveredEvent :=
  if lines.any fun l => contains l "Instruction: Create" then
    some
      { mint :=
          (dataMint decode lines).getD
            s!"unknown-{shortSignature signature}"
        name := "New Token"
        symbol := "NEW"
        uri := ""
        creator := ""
        bondingCurve := ""
        timestamp := now
        virtualSolReserves := 30000000000
        virtualTokenReserves := 1073000000000000 }
  else
    none

------------------------------------------------------------
-- The Subscriptions
------------------------------------------------------------

/- What a turn of the two loops publishes. -/
def published
    (decode : String → Option (List UInt8))
    (n : Notification) : Option TokenDiscoveredEvent :=
  match n.notice with
  | .logs signature lines =>
      if isTokenCreate lines then
        parseCreateEvent decode lines signature n.now
      else
        none
  | .account pubkey =>
      some
        { mint := pubkey
          name := "Unknown"
          symbol := "UNK"
          uri := ""
          creator := ""
          bondingCurve := pubkey
          timestamp := n.now
          virtualSolReserves := 30000000000
          virtualTokenReserves := 1073000000000000 }

------------------------------------------------------------
-- What Was Created
------------------------------------------------------------

/- A key as text. -/
def toBase58 (key : Pubkey) : String :=
  standardBase58 key.bytes.toList

/-
  The notification is about a transaction that created the token
  of the mint.  `created` has the mints of the tokens that the
  transaction of a signature created, whatever its logs say.
-/
def Creates
    (created : String → List Pubkey)
    (n : Notification)
    (mint : Pubkey) : Prop :=
  match n.notice with
  | .logs signature _ => mint ∈ created signature
  | .account _ => False

/-
  The logs are of an instruction to create, and their first data
  is the mint, with eight bytes before it.
-/
structure CarriesMint
    (decode : String → Option (List UInt8))
    (lines : List String)
    (mint : Pubkey) : Prop where
  instruction : ∃ l ∈ lines, contains l "Instruction: Create" = true
  data :
    ∃ l discriminator rest,
      lines.find? (startsWith · "Program data: ") = some l ∧
        decode (trimStartMatches l "Program data: ") =
            some (discriminator ++ mint.bytes.toList ++ rest) ∧
          discriminator.length = 8

def Carries
    (decode : String → Option (List UInt8))
    (n : Notification)
    (mint : Pubkey) : Prop :=
  match n.notice with
  | .logs _ lines => CarriesMint decode lines mint
  | .account _ => False

section Published

variable {decode : String → Option (List UInt8)} {n : Notification}
variable {created : String → List Pubkey} {lines : List String}
variable {mint : Pubkey}

theorem bytes_ne_nil (key : Pubkey) :
    key.bytes.toList ≠ [] := by
  intro hNil
  have hLength := key.bytes.length_toList
  rw [hNil] at hLength
  cases hLength

/- No two keys have the same text. -/
theorem toBase58_inj
    {a b : Pubkey}
    (hSame : toBase58 a = toBase58 b) :
    a = b := by
  unfold toBase58 at hSame
  rw [← base58Encode_standard (bytes_ne_nil a),
    ← base58Encode_standard (bytes_ne_nil b)] at hSame
  have hRead := base58Decode_encode (bytes_ne_nil a)
  rw [hSame, base58Decode_encode (bytes_ne_nil b),
    Except.ok.injEq] at hRead
  have hBytes : a.bytes = b.bytes := Vector.toList_inj.mp hRead.symm
  cases a
  cases b
  rw [Pubkey.mk.injEq]
  exact hBytes

/- A text with a dash in it is no key. -/
theorem unknown_ne_toBase58
    (rest : String)
    (key : Pubkey) :
    "unknown-" ++ rest ≠ toBase58 key := by
  intro hSame
  have hDash : '-' ∈ (toBase58 key).toList := by
    rw [← hSame, String.toList_append]
    exact List.mem_append_left _ (by decide)
  rw [toBase58, ← base58Encode_standard (bytes_ne_nil key)] at hDash
  exact absurd (base58Encode_chars (bytes_ne_nil key) '-' hDash)
    (by decide)

/- The parser reads the mint that is there. -/
theorem CarriesMint.dataMint_eq
    (hCarries : CarriesMint decode lines mint) :
    dataMint decode lines = some (toBase58 mint) := by
  rcases hCarries.data with ⟨l, front, rest, hLine, hDecoded, hEight⟩
  have hLength :
      (front ++ mint.bytes.toList ++ rest).length = 40 + rest.length := by
    rw [List.length_append, List.length_append, hEight,
      Vector.length_toList]
  have hRead :
      ((front ++ mint.bytes.toList ++ rest).drop 8).take 32 =
        mint.bytes.toList := by
    rw [List.append_assoc, List.drop_left' hEight]
    exact List.take_left' mint.bytes.length_toList
  unfold dataMint
  rw [hLine]
  dsimp only
  rw [hDecoded]
  dsimp only
  rw [if_pos (by omega), hRead, toBase58]

/- What the parser reads is there. -/
theorem carriesMint_of_dataMint
    (hCreate :
      (lines.any fun l => contains l "Instruction: Create") = true)
    (hMint : dataMint decode lines = some (toBase58 mint)) :
    CarriesMint decode lines mint := by
  refine ⟨List.any_eq_true.mp hCreate, ?_⟩
  unfold dataMint at hMint
  split at hMint
  · rename_i l hLine
    split at hMint
    · rename_i bytes hDecoded
      split at hMint
      · rename_i hLong
        have hLength : ((bytes.drop 8).take 32).length = 32 := by
          rw [List.length_take, List.length_drop]
          omega
        have hKey :
            toBase58 ⟨⟨((bytes.drop 8).take 32).toArray, hLength⟩⟩ =
              toBase58 mint :=
          Option.some.inj hMint
        have hSame := toBase58_inj hKey
        refine ⟨l, bytes.take 8, bytes.drop 40, hLine, ?_, ?_⟩
        · rw [hDecoded, ← hSame]
          have hSplit :
              bytes.take 8 ++ (bytes.drop 8).take 32 ++ bytes.drop 40 =
                bytes := by
            rw [List.append_assoc]
            have hRest : bytes.drop 40 = (bytes.drop 8).drop 32 := by
              rw [List.drop_drop]
            rw [hRest, List.take_append_drop, List.take_append_drop]
          exact congrArg some hSplit.symm
        · rw [List.length_take]
          omega
      · cases hMint
    · cases hMint
  · cases hMint

/- An instruction to create mentions a creation. -/
theorem isTokenCreate_of_instruction
    (hCreate :
      (lines.any fun l => contains l "Instruction: Create") = true) :
    isTokenCreate lines = true := by
  rcases List.any_eq_true.mp hCreate with ⟨l, hMem, hLine⟩
  have hPart : "Create".toList <:+: "Instruction: Create".toList := by
    decide
  have hCreates : contains l "Create" = true :=
    containsText_iff.mpr (hPart.trans (containsText_iff.mp hLine))
  exact List.any_eq_true.mpr ⟨l, hMem, by rw [hCreates, Bool.true_or]⟩

/- A mint that is there is published. -/
theorem published_of_carries
    (hCarries : Carries decode n mint) :
    ∃ event,
      published decode n = some event ∧ event.mint = toBase58 mint := by
  unfold Carries at hCarries
  unfold published
  cases hNotice : n.notice with
  | logs signature lines =>
      simp only [hNotice] at hCarries ⊢
      have hCreate := List.any_eq_true.mpr hCarries.instruction
      rw [if_pos (isTokenCreate_of_instruction hCreate),
        parseCreateEvent, if_pos hCreate, hCarries.dataMint_eq]
      exact ⟨_, rfl, rfl⟩
  | account pubkey =>
      simp only [hNotice] at hCarries

/-
  What is published has the mint of a token that was created
  exactly if it is there to be read.
-/
theorem mint_published_iff
    {event : TokenDiscoveredEvent}
    (hPublished : published decode n = some event)
    (hCreates : Creates created n mint) :
    event.mint = toBase58 mint ↔ Carries decode n mint := by
  constructor
  · intro hMint
    unfold Creates at hCreates
    unfold published at hPublished
    unfold Carries
    cases hNotice : n.notice with
    | logs signature lines =>
        simp only [hNotice] at hPublished ⊢
        split at hPublished
        · unfold parseCreateEvent at hPublished
          split at hPublished
          · rename_i hCreate
            cases hPublished
            cases hData : dataMint decode lines with
            | none =>
                rw [hData] at hMint
                exact absurd hMint (unknown_ne_toBase58 _ mint)
            | some text =>
                rw [hData] at hMint
                have hText : text = toBase58 mint := hMint
                exact carriesMint_of_dataMint hCreate (hText ▸ hData)
          · cases hPublished
        · cases hPublished
    | account pubkey =>
        simp only [hNotice] at hCreates
  · intro hCarries
    rcases published_of_carries hCarries with ⟨event', hEvent, hSame⟩
    rw [hPublished, Option.some.injEq] at hEvent
    rw [hEvent, hSame]

end Published

end Websocket

end Pumpy
