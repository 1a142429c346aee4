import Mathlib.Data.List.Basic
import Pumpy.Engine.BondingCurve
import Pumpy.Numeric.Binary64

/-
  This file defines the orders of the engine, the records it
  keeps of them, and what it sends out
  (rust-engine/src/order/mod.rs, pumpfun/instructions.rs,
  decision/mod.rs).

  Key definitions include:
    * `Order`
    * `OrderError`
    * `OrderEvent`
    * `Decision`
    * `Transaction`
    * `buildBuyInstruction`
    * `buildSellInstruction`
-/

------------------------------------------------------------
-- Orders
------------------------------------------------------------

namespace Pumpy

abbrev OrderId := String
abbrev Uuid := Nat
abbrev Timestamp := Nat

/- A span of time, in nanoseconds. -/
abbrev Duration := Nat

inductive OrderType where
  | market | limit | stopLoss | takeProfit
deriving DecidableEq, Repr

inductive OrderSide where
  | buy | sell
deriving DecidableEq, Repr

inductive OrderStatus where
  | pending | validating | executing | executed
  | failed | cancelled | expired
deriving DecidableEq, Repr

structure Order where
  id : OrderId
  mint : String
  orderType : OrderType
  side : OrderSide
  amount : UInt64
  price : Option F64
  maxCost : Option UInt64
  minOutput : Option UInt64
  slippageBps : UInt64
  status : OrderStatus
  strategy : String
  metadata : List (String × String)
  createdAt : Timestamp
  updatedAt : Timestamp
  executedAt : Option Timestamp
  signature : Option String
  error : Option String
  retryCount : UInt32
  executedPrice : Option F64
  executedAmount : Option UInt64
  clientOrderId : Option Uuid
  traceId : Option String
deriving DecidableEq

/- A failed SQL statement, with the driver's message. -/
structure DbError where
  message : String
deriving DecidableEq, Repr

/- The errors of the order manager that its code raises. -/
inductive OrderError where
  | queueFull : OrderError
  | databaseError (e : DbError) : OrderError
  | executionError (reason : String) : OrderError
  | channelError : OrderError
deriving DecidableEq, Repr

/- What subscribers of the event stream are told. -/
structure OrderEvent where
  orderId : OrderId
  tokenMint : String
  status : OrderStatus
  signature : Option String
  error : Option String
  executedAt : Option Timestamp
  executedPrice : Option F64
  executedAmount : Option UInt64
deriving DecidableEq

/- The event `emit_event` builds from an order. -/
def Order.event (o : Order) : OrderEvent where
  orderId := o.id
  tokenMint := o.mint
  status := o.status
  signature := o.signature
  error := o.error
  executedAt := o.executedAt
  executedPrice := o.executedPrice
  executedAmount := o.executedAmount

/- `amount as f64 / 1_000_000_000.0`. -/
def solOf (amount : UInt64) : F64 :=
  (F64.ofNat amount.toNat).divConst 1000000000

------------------------------------------------------------
-- Decisions
------------------------------------------------------------

/- The outcome of the decision engine for a trade request. -/
inductive Decision where
  | allow : Decision
  | reject (reason : String) : Decision
  | halt (reason : String) : Decision
deriving DecidableEq, Repr

namespace Decision

def isAllow : Decision → Bool
  | allow => true
  | reject _ => false
  | halt _ => false

def label : Decision → String
  | allow => "ALLOW"
  | reject _ => "REJECT"
  | halt _ => "HALT"

def reason : Decision → String
  | allow => "trade approved"
  | reject r => r
  | halt r => r

end Decision

------------------------------------------------------------
-- Transactions
------------------------------------------------------------

/- A Solana address. -/
structure Pubkey where
  bytes : Vector UInt8 32
deriving DecidableEq

/- A recent blockhash. -/
abbrev Hash := Nat

/-
  An instruction.  The account list of a pump.fun instruction
  is derived from the user and the mint.
-/
inductive Instruction where
  | pumpFun (user mint : Pubkey) (data : List UInt8) : Instruction
  | systemTransfer (src dst : Pubkey) (lamports : UInt64) :
      Instruction
deriving DecidableEq

/- A signed transaction. -/
structure Transaction where
  instructions : List Instruction
  payer : Pubkey
  recentBlockhash : Hash
deriving DecidableEq

/- `n.to_le_bytes()`. -/
def toLeBytes (n : UInt64) : List UInt8 :=
  (List.range 8).map fun i => UInt8.ofNat (n.toNat / 256 ^ i)

/- The number eight little-endian bytes stand for. -/
def fromLeBytes (bytes : List UInt8) : Nat :=
  bytes.foldr (fun b n => b.toNat + 256 * n) 0

/- The first `k` base-256 digits stand for the number below `256 ^ k`. -/
theorem fromLeBytes_digits
    (n k : Nat) :
    fromLeBytes
        ((List.range k).map fun i => UInt8.ofNat (n / 256 ^ i)) =
      n % 256 ^ k := by
  induction k generalizing n with
  | zero => simp [fromLeBytes, Nat.mod_one]
  | succ k ih =>
      have hTail :
          (List.range k).map
              ((fun i => UInt8.ofNat (n / 256 ^ i)) ∘ Nat.succ) =
            (List.range k).map
              fun i => UInt8.ofNat (n / 256 / 256 ^ i) := by
        apply List.map_congr_left
        intro i _
        simp only [Function.comp]
        rw [Nat.succ_eq_add_one, Nat.pow_succ', Nat.div_div_eq_div_mul]
      have hRest := ih (n / 256)
      unfold fromLeBytes at hRest ⊢
      rw [List.range_succ_eq_map, List.map_cons, List.map_map, hTail,
        List.foldr_cons, hRest]
      have hDigit :
          n % (256 * 256 ^ k) =
            n % 256 + 256 * (n / 256 % 256 ^ k) :=
        Nat.mod_mul
      rw [Nat.pow_succ', hDigit]
      simp

/- Eight little-endian bytes hold a `u64`. -/
theorem fromLeBytes_toLeBytes
    (n : UInt64) :
    fromLeBytes (toLeBytes n) = n.toNat := by
  unfold toLeBytes
  rw [fromLeBytes_digits]
  exact Nat.mod_eq_of_lt n.toNat_lt

theorem length_toLeBytes
    (n : UInt64) :
    (toLeBytes n).length = 8 := by
  simp [toLeBytes]

def buyDiscriminator : List UInt8 :=
  [102, 6, 61, 18, 1, 218, 235, 234]

def sellDiscriminator : List UInt8 :=
  [51, 230, 133, 164, 1, 127, 131, 173]

/- The buy instruction for the bonding curve of `mint`. -/
def buildBuyInstruction
    (buyer mint : Pubkey)
    (amount maxSolCost : UInt64) : Instruction :=
  .pumpFun buyer mint
    (buyDiscriminator ++ toLeBytes amount ++ toLeBytes maxSolCost)

/- The sell instruction for the bonding curve of `mint`. -/
def buildSellInstruction
    (seller mint : Pubkey)
    (amount minSolOutput : UInt64) : Instruction :=
  .pumpFun seller mint
    (sellDiscriminator ++ toLeBytes amount ++
      toLeBytes minSolOutput)

end Pumpy
