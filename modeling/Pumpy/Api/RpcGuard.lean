import Pumpy.Numeric.JsNumber

/-
  The guard of the settings routes against requests to private
  addresses (artifacts/api-server/src/routes/settings.ts), over
  the hosts that the URL parser returns.

  A host is what the URL standard makes of it: a name in lower
  case that does not end in a number, or an address of 32 or of
  128 bits, which the parser writes in dotted decimal and in
  brackets.

  Key definitions include:
    * `InSubnet`
    * `Host.serialize`
    * `Host.IsInternal`
    * `isSafeRpcUrl`
    * `testRpc`
    * `Guarded`

  The main results are `mem_pings_iff` and `guarded_iff`.
-/

namespace Pumpy

------------------------------------------------------------
-- Subnets
------------------------------------------------------------

/- The first `len` bits of an address are those of `base`. -/
def InSubnet {w : Nat} (a base : BitVec w) (len : Nat) : Prop :=
  a.toNat / 2 ^ (w - len) = base.toNat / 2 ^ (w - len)

instance {w : Nat} (a base : BitVec w) (len : Nat) :
    Decidable (InSubnet a base len) :=
  inferInstanceAs (Decidable (_ = _))

/- 0/8, 10/8, 127/8, 169.254/16, 172.16/12 and 192.168/16. -/
def internalSubnets4 : List (BitVec 32 × Nat) :=
  [(0x00000000#32, 8), (0x0A000000#32, 8), (0x7F000000#32, 8),
    (0xA9FE0000#32, 16), (0xAC100000#32, 12), (0xC0A80000#32, 16)]

/- ::/128, ::1/128, fe80::/10 and fc00::/7. -/
def internalSubnets6 : List (BitVec 128 × Nat) :=
  [(0, 128), (1, 128), (0xFE80 <<< 112, 10), (0xFC00 <<< 112, 7)]

def IsInternal4 (a : BitVec 32) : Prop :=
  ∃ net ∈ internalSubnets4, InSubnet a net.1 net.2

/- ::ffff:0:0/96, and the address that is mapped. -/
def IsMapped (a : BitVec 128) : Prop :=
  InSubnet a (0xFFFF <<< 32) 96

def IsInternal6 (a : BitVec 128) : Prop :=
  (∃ net ∈ internalSubnets6, InSubnet a net.1 net.2) ∨
    (IsMapped a ∧ IsInternal4 (a.setWidth 32))

instance (a : BitVec 32) : Decidable (IsInternal4 a) :=
  inferInstanceAs (Decidable (∃ net ∈ _, _))

instance (a : BitVec 128) : Decidable (IsInternal6 a) :=
  inferInstanceAs (Decidable (_ ∨ (_ = _ ∧ _)))

------------------------------------------------------------
-- Hosts
------------------------------------------------------------

/- The bytes of an address, the first one first. -/
def ipv4Bytes (a : BitVec 32) : List UInt8 :=
  [24, 16, 8, 0].map fun k => UInt8.ofNat (a.toNat / 2 ^ k)

/- `127.0.0.1`, say. -/
def ipv4Text (a : BitVec 32) : List Char :=
  ['.'].intercalate
    ((ipv4Bytes a).map fun byte => (toString byte.toNat).toList)

/- The pieces of 16 bits of an address, the first one first. -/
def ipv6Pieces (a : BitVec 128) : List Nat :=
  (List.range 8).map fun i => a.toNat / 2 ^ (16 * (7 - i)) % 2 ^ 16

def zerosAt (pieces : List Nat) (i : Nat) : Nat :=
  ((pieces.drop i).takeWhile (· = 0)).length

/- Where the first of the longest runs of zero pieces starts. -/
def compressAt (pieces : List Nat) : Option Nat :=
  let runs := (List.range pieces.length).map (zerosAt pieces)
  let longest := runs.foldl max 0
  if longest < 2 then none else runs.idxOf? longest

def piecesText (pieces : List Nat) : List Char :=
  [':'].intercalate (pieces.map fun piece => Nat.toDigits 16 piece)

/- `[::1]`, say. -/
def ipv6Text (a : BitVec 128) : List Char :=
  let pieces := ipv6Pieces a
  let text :=
    match compressAt pieces with
    | none => piecesText pieces
    | some i =>
        piecesText (pieces.take i) ++ [':', ':'] ++
          piecesText (pieces.drop (i + zerosAt pieces i))
  '[' :: text ++ [']']

example : ipv6Text (0xFE80 <<< 112 ||| 0xA0000 ||| 1) =
    "[fe80::a:1]".toList := by
  decide +kernel

/- `0x` and hexadecimal digits, or decimal digits. -/
def isIpv4Number (label : List Char) : Bool :=
  (label ≠ [] && label.all Char.isDigit) ||
    (['0', 'x'].isPrefixOf label &&
      (label.drop 2).all fun c => (Js.radixDigit 16 c).isSome)

/- The last label of a name, unless it is empty, is a number. -/
def endsInNumber (name : List Char) : Bool :=
  let labels := name.splitOn '.'
  let labels :=
    if labels.getLast? = some [] then labels.dropLast else labels
  labels.getLast?.any isIpv4Number

/- A name that the parser returns as the host of a URL. -/
structure DomainName where
  text : List Char
  nonempty : text ≠ []
  lower : ∀ c ∈ text, c.toNat < 128 ∧ c.toLower = c
  notNumber : endsInNumber text = false

/-
  The host of a URL.  The last two are of URLs of other schemes
  than these two.
-/
inductive Host where
  | domain (name : DomainName) : Host
  | ipv4 (address : BitVec 32) : Host
  | ipv6 (address : BitVec 128) : Host
  | encoded (text : List Char) : Host
  | empty : Host

namespace Host

/- `hostname` of a URL with this host. -/
def serialize : Host → List Char
  | .domain name => name.text
  | .ipv4 address => ipv4Text address
  | .ipv6 address => ipv6Text address
  | .encoded text => text
  | .empty => []

/- A host that is named or addressed as the URL standard has it. -/
def Special : Host → Prop
  | .domain _ => True
  | .ipv4 _ => True
  | .ipv6 _ => True
  | .encoded _ => False
  | .empty => False

/- The hosts that a request from the server is not to reach. -/
def IsInternal : Host → Prop
  | .domain name =>
      name.text = "localhost".toList ∨
        name.text = "localhost.".toList
  | .ipv4 address => IsInternal4 address
  | .ipv6 address => IsInternal6 address
  | .encoded _ => False
  | .empty => False

/- The ones among them that no line of the guard is about. -/
def IsUnlisted : Host → Prop
  | .domain name => name.text = "localhost.".toList
  | .ipv6 address => IsInternal6 address
  | .ipv4 _ => False
  | .encoded _ => False
  | .empty => False

end Host

/- A scheme whose requests go out by HTTP. -/
def isHttp (protocol : String) : Bool :=
  protocol == "http:" || protocol == "https:"

/- A parsed URL. -/
structure Url where
  protocol : String
  host : Host
  special : isHttp protocol = true → host.Special

/- `parsed.hostname`. -/
def Url.hostname (parsed : Url) : List Char :=
  parsed.host.serialize

------------------------------------------------------------
-- The guard
------------------------------------------------------------

/- The numbers of `host.split(".").map(Number)`. -/
def hostParts (host : List Char) : List F64 :=
  (host.splitOn '.').map fun part => Js.number (String.ofList part)

/- Four numbers that start like a private address. -/
def isPrivateIpv4 (ipv4Parts : List F64) : Bool :=
  match ipv4Parts with
  | [a, b, c, d] =>
      [a, b, c, d].all (fun n => !Js.isNaN n) &&
        (Js.eq a (.fin 127) ||
        Js.eq a (.fin 10) ||
        (Js.eq a (.fin 172) && Js.ge b (.fin 16) &&
          Js.ge (.fin 31) b) ||
        (Js.eq a (.fin 192) && Js.eq b (.fin 168)) ||
        (Js.eq a (.fin 169) && Js.eq b (.fin 254)) ||
        Js.eq a (.fin 0))
  | _ => false

/- The tests on the host, once it is in lower case. -/
def isSafeHost (host : List Char) : Bool :=
  if host = "localhost".toList ∨ host = "0.0.0.0".toList ∨
      ".local".toList.isSuffixOf host then
    false
  else
    !isPrivateIpv4 (hostParts host)

/- `newUrl` is `new URL(urlStr)`; there is no URL if it throws. -/
def isSafeRpcUrl
    (newUrl : String → Option Url)
    (urlStr : String) : Bool :=
  match newUrl urlStr with
  | none => false
  | some parsed =>
      if isHttp parsed.protocol = false then
        false
      else
        isSafeHost (parsed.hostname.map Char.toLower)

/- A response of the route. -/
inductive TestRpcResponse where
  | badRequest (error : String) : TestRpcResponse
  | tested (latencyMs : Option Nat) : TestRpcResponse
  | serverError (error : String) : TestRpcResponse
deriving DecidableEq

/- The body of a request; its URL is `none` if it is not a string. -/
inductive TestRpcBody where
  | undefined : TestRpcBody
  | url (value : Option String) : TestRpcBody

/-
  `POST /settings/config/test-rpc`: the response, and the URLs
  that were fetched.  `fetched` is what `pingRpc` returns for
  one: the latency if the response was a success.
-/
def testRpc
    (newUrl : String → Option Url)
    (fetched : String → Option Nat) :
    TestRpcBody → TestRpcResponse × List String
  | .undefined => (.serverError "Test failed", [])
  | .url value =>
      match value.filter (· ≠ "") with
      | none => (.badRequest "A URL string is required", [])
      | some url =>
          if isSafeRpcUrl newUrl url then
            (.tested (fetched url), [url])
          else
            (.badRequest
              ("URL must be an external https:// or http:// " ++
                "address. Private/local addresses are not allowed."),
              [])

/- What the guard accepts does not lead to an internal host. -/
def Guarded
    (newUrl : String → Option Url)
    (urlStr : String) : Prop :=
  isSafeRpcUrl newUrl urlStr = true →
    ∀ parsed, newUrl urlStr = some parsed → ¬parsed.host.IsInternal

/- A URL is fetched only if the guard accepts it. -/
theorem mem_pings_iff
    (newUrl : String → Option Url)
    (fetched : String → Option Nat)
    (value : Option String)
    (url : String) :
    url ∈ (testRpc newUrl fetched (.url value)).2 ↔
      value = some url ∧ url ≠ "" ∧ isSafeRpcUrl newUrl url = true := by
  rw [testRpc]
  cases hText : value.filter (· ≠ "") with
  | none =>
      simp only [Option.filter_eq_none_iff, decide_eq_true_eq] at hText
      simp only [List.not_mem_nil, false_iff, not_and]
      intro hValue hNe
      exact absurd hNe (hText url hValue)
  | some text =>
      simp only [Option.filter_eq_some_iff, decide_eq_true_eq] at hText
      rcases hText with ⟨rfl, hNe⟩
      by_cases hSafe : isSafeRpcUrl newUrl text = true
      · simp only [if_pos hSafe, List.mem_singleton, Option.some.injEq]
        constructor
        · rintro rfl
          exact ⟨rfl, hNe, hSafe⟩
        · rintro ⟨rfl, -⟩
          rfl
      · simp only [if_neg hSafe, List.not_mem_nil, Option.some.injEq,
          false_iff]
        rintro ⟨rfl, -, hAccepted⟩
        exact hSafe hAccepted

------------------------------------------------------------
-- Dotted Decimal
------------------------------------------------------------

/- The digits of a byte: no point among them, and in lower case. -/
theorem byteText_chars (byte : UInt8) :
    '.' ∉ (toString byte.toNat).toList ∧
      (toString byte.toNat).toList.map Char.toLower =
        (toString byte.toNat).toList := by
  have hAll : ∀ n : Fin 256,
      '.' ∉ (toString n.val).toList ∧
        (toString n.val).toList.map Char.toLower =
          (toString n.val).toList := by
    decide +kernel
  exact hAll ⟨byte.toNat, byte.toNat_lt⟩

theorem ipv4Text_lower (a : BitVec 32) :
    (ipv4Text a).map Char.toLower = ipv4Text a := by
  have hPoint : ['.'].map Char.toLower = ['.'] := by decide
  simp only [ipv4Text, ipv4Bytes, List.map_cons, List.map_nil,
    List.intercalate_cons_cons, List.intercalate_singleton,
    List.map_append, (byteText_chars _).2, hPoint]

/- The numbers of an address are its bytes. -/
theorem hostParts_ipv4Text (a : BitVec 32) :
    hostParts (ipv4Text a) =
      (ipv4Bytes a).map fun byte => F64.fin byte.toNat := by
  have hSplit :
      (ipv4Text a).splitOn '.' =
        (ipv4Bytes a).map fun byte => (toString byte.toNat).toList := by
    apply List.splitOn_intercalate
    · intro part hPart
      rcases List.mem_map.mp hPart with ⟨byte, -, rfl⟩
      exact (byteText_chars byte).1
    · simp [ipv4Bytes]
  rw [hostParts, hSplit, List.map_map]
  apply List.map_congr_left
  intro byte _
  rw [Function.comp_apply, String.ofList_toList, Js.number_toString]

/- The test on the numbers, on those of an address. -/
theorem isPrivateIpv4_iff (a b c d : UInt8) :
    isPrivateIpv4
        ([a, b, c, d].map fun byte => F64.fin byte.toNat) = true ↔
      a.toNat = 127 ∨ a.toNat = 10 ∨
        (a.toNat = 172 ∧ 16 ≤ b.toNat ∧ b.toNat ≤ 31) ∨
        (a.toNat = 192 ∧ b.toNat = 168) ∨
        (a.toNat = 169 ∧ b.toNat = 254) ∨ a.toNat = 0 := by
  simp only [isPrivateIpv4, List.map_cons, List.map_nil, List.all_cons,
    List.all_nil, Js.isNaN_fin, Js.eq_fin, Js.ge_fin, Bool.not_false,
    Bool.and_self, Bool.true_and, Bool.or_eq_true, Bool.and_eq_true,
    decide_eq_true_eq]
  norm_cast
  tauto

/- The six tests are the six subnets. -/
theorem isPrivateIpv4_bytes (a : BitVec 32) :
    isPrivateIpv4
        ((ipv4Bytes a).map fun byte => F64.fin byte.toNat) = true ↔
      IsInternal4 a := by
  have hBound := a.isLt
  have hBytes :
      ipv4Bytes a =
        [UInt8.ofNat (a.toNat / 2 ^ 24), UInt8.ofNat (a.toNat / 2 ^ 16),
          UInt8.ofNat (a.toNat / 2 ^ 8),
          UInt8.ofNat (a.toNat / 2 ^ 0)] :=
    rfl
  rw [hBytes, isPrivateIpv4_iff]
  simp only [IsInternal4, internalSubnets4, InSubnet,
    List.mem_cons, List.not_mem_nil, or_false, exists_eq_or_imp,
    exists_eq_left, UInt8.toNat_ofNat', BitVec.toNat_ofNat]
  norm_num
  omega

/- No internal address in dotted decimal passes. -/
theorem isPrivateIpv4_of_internal
    {a : BitVec 32}
    (hInternal : IsInternal4 a) :
    isPrivateIpv4 (hostParts ((ipv4Text a).map Char.toLower)) =
      true := by
  rw [ipv4Text_lower, hostParts_ipv4Text]
  exact (isPrivateIpv4_bytes a).mpr hInternal

------------------------------------------------------------
-- Brackets
------------------------------------------------------------

theorem notMem_intercalate
    {c sep : Char}
    {parts : List (List Char)}
    (hSep : c ≠ sep)
    (hParts : ∀ part ∈ parts, c ∉ part) :
    c ∉ [sep].intercalate parts := by
  induction parts with
  | nil => simp
  | cons part rest ih =>
      have hPart := hParts part (by simp)
      have hRest := ih fun part hMem => hParts part (by simp [hMem])
      cases rest with
      | nil => simpa using hPart
      | cons next rest =>
          rw [List.intercalate_cons_cons]
          simp only [List.mem_append, List.mem_singleton, not_or]
          exact ⟨⟨hPart, hSep⟩, hRest⟩

/- No hexadecimal digit is a point. -/
theorem point_notMem_toDigits (n : Nat) :
    '.' ∉ Nat.toDigits 16 n := by
  have hDigit : ∀ d < 16, '.' ≠ Nat.digitChar d := by
    decide
  induction n using Nat.strong_induction_on with
  | _ n ih =>
      by_cases hSmall : n < 16
      · rw [Nat.toDigits_of_lt_base hSmall, List.mem_singleton]
        exact hDigit n hSmall
      · rw [Nat.toDigits_of_base_le (by omega) (by omega),
          List.mem_append, not_or, List.mem_singleton]
        exact ⟨ih (n / 16) (by omega), hDigit (n % 16) (by omega)⟩

theorem point_notMem_piecesText (pieces : List Nat) :
    '.' ∉ piecesText pieces := by
  apply notMem_intercalate (by decide)
  intro part hPart
  rcases List.mem_map.mp hPart with ⟨piece, -, rfl⟩
  exact point_notMem_toDigits piece

theorem point_notMem_ipv6Text (a : BitVec 128) :
    '.' ∉ ipv6Text a := by
  rw [ipv6Text]
  cases compressAt (ipv6Pieces a) with
  | none => simp [point_notMem_piecesText]
  | some i => simp [point_notMem_piecesText]

/- Only the point has the point as its lower case. -/
theorem eq_point_of_toLower
    {c : Char}
    (hLower : c.toLower = '.') :
    c = '.' := by
  delta Char.toLower at hLower
  split at hLower
  · rename_i hUpper
    have hVal : c.val = '.'.val - ('a'.val - 'A'.val) := by
      rw [← hLower]
      exact (UInt32.add_sub_cancel _ _).symm
    rw [hVal] at hUpper
    exact absurd hUpper.1 (by decide)
  · exact hLower

theorem point_notMem_lower
    {text : List Char}
    (hText : '.' ∉ text) :
    '.' ∉ text.map Char.toLower := by
  intro hMem
  rcases List.mem_map.mp hMem with ⟨c, hChar, hLower⟩
  rw [eq_point_of_toLower hLower] at hChar
  exact hText hChar

/- A host without a point is not taken for an IPv4 address. -/
theorem isPrivateIpv4_of_notMem
    {host : List Char}
    (hPoint : '.' ∉ host) :
    isPrivateIpv4 (hostParts host) = false := by
  rw [hostParts, List.splitOn_eq_singleton hPoint]
  rfl

/- Nothing in brackets is refused. -/
theorem isSafeHost_ipv6Text (a : BitVec 128) :
    isSafeHost ((ipv6Text a).map Char.toLower) = true := by
  have hPoint := point_notMem_lower (point_notMem_ipv6Text a)
  have hStart :
      ∃ rest, (ipv6Text a).map Char.toLower = '[' :: rest :=
    ⟨_, rfl⟩
  have hNamed :
      ¬((ipv6Text a).map Char.toLower = "localhost".toList ∨
        (ipv6Text a).map Char.toLower = "0.0.0.0".toList ∨
        ".local".toList.isSuffixOf ((ipv6Text a).map Char.toLower) =
          true) := by
    rintro (hHost | hHost | hLocal)
    · rcases hStart with ⟨rest, hStart⟩
      rw [hStart] at hHost
      exact absurd (List.head_eq_of_cons_eq hHost) (by decide)
    · rw [hHost] at hPoint
      exact hPoint (by decide)
    · have hSuffix := List.isSuffixOf_iff_suffix.mp hLocal
      exact hPoint (hSuffix.mem (by decide))
  rw [isSafeHost, if_neg hNamed, isPrivateIpv4_of_notMem hPoint,
    Bool.not_false]

------------------------------------------------------------
-- What the guard misses
------------------------------------------------------------

theorem Host.internal_of_unlisted
    {host : Host}
    (hUnlisted : host.IsUnlisted) :
    host.IsInternal := by
  cases host with
  | domain name => exact Or.inr hUnlisted
  | ipv6 address => exact hUnlisted
  | ipv4 address => exact hUnlisted.elim
  | encoded text => exact hUnlisted.elim
  | empty => exact hUnlisted.elim

/- Of the internal hosts, the unlisted ones pass. -/
theorem isSafeHost_iff
    {host : Host}
    (hInternal : host.IsInternal) :
    isSafeHost (host.serialize.map Char.toLower) = true ↔
      host.IsUnlisted := by
  cases host with
  | domain name =>
      rcases hInternal with hName | hName
      · have hListed :
            isSafeHost ("localhost".toList.map Char.toLower) = false ∧
              "localhost".toList ≠ "localhost.".toList := by
          decide +kernel
        rw [Host.serialize, Host.IsUnlisted, hName, hListed.1]
        exact iff_of_false Bool.false_ne_true hListed.2
      · have hPasses :
            isSafeHost ("localhost.".toList.map Char.toLower) = true := by
          decide +kernel
        rw [Host.serialize, Host.IsUnlisted, hName, hPasses]
        exact iff_of_true rfl rfl
  | ipv6 address =>
      exact iff_of_true (isSafeHost_ipv6Text address) hInternal
  | ipv4 address =>
      have hPrivate := isPrivateIpv4_of_internal hInternal
      apply iff_of_false _ not_false
      rw [Host.serialize, isSafeHost, hPrivate]
      split <;> simp
  | encoded text => exact hInternal.elim
  | empty => exact hInternal.elim

/-
  The guard keeps its promise on a URL unless its host is
  `localhost.` or an internal address in brackets.
-/
theorem guarded_iff
    (newUrl : String → Option Url)
    (urlStr : String) :
    Guarded newUrl urlStr ↔
      ∀ parsed, newUrl urlStr = some parsed →
        isHttp parsed.protocol = true → ¬parsed.host.IsUnlisted := by
  constructor
  · intro hGuarded parsed hParsed hHttp hUnlisted
    have hInternal := Host.internal_of_unlisted hUnlisted
    have hPasses := (isSafeHost_iff hInternal).mpr hUnlisted
    refine hGuarded ?_ parsed hParsed hInternal
    rw [isSafeRpcUrl, hParsed]
    simpa [hHttp, Url.hostname] using hPasses
  · intro hListed hSafe parsed hParsed hInternal
    rw [isSafeRpcUrl, hParsed] at hSafe
    cases hHttp : isHttp parsed.protocol with
    | false => simp [hHttp] at hSafe
    | true =>
        simp only [hHttp, Bool.true_eq_false, if_false] at hSafe
        exact hListed parsed hParsed hHttp
          ((isSafeHost_iff hInternal).mp hSafe)

/- The URL of the loopback address in brackets. -/
def loopbackUrl : Url where
  protocol := "http:"
  host := .ipv6 1
  special := fun _ => trivial

/- A parser that knows this one URL. -/
def loopbackParser (urlStr : String) : Option Url :=
  if urlStr = "http://[::1]/" then some loopbackUrl else none

/- The guard accepts `http://[::1]/`, and it is fetched. -/
theorem guard_misses_loopback :
    loopbackUrl.hostname = "[::1]".toList ∧
      (∀ fetched, "http://[::1]/" ∈
        (testRpc loopbackParser fetched
          (.url (some "http://[::1]/"))).2) ∧
      ¬Guarded loopbackParser "http://[::1]/" := by
  have hParsed :
      loopbackParser "http://[::1]/" = some loopbackUrl :=
    if_pos rfl
  have hSafe :
      isSafeRpcUrl loopbackParser "http://[::1]/" = true := by
    rw [isSafeRpcUrl, hParsed]
    exact isSafeHost_ipv6Text 1
  refine ⟨by decide +kernel, fun fetched => ?_, fun hGuarded => ?_⟩
  · rw [mem_pings_iff]
    exact ⟨rfl, by decide, hSafe⟩
  · exact hGuarded hSafe loopbackUrl hParsed (Or.inl (by decide))

end Pumpy
