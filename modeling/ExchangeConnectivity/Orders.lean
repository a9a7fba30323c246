import ExchangeConnectivity.JsonValues

/-!
# Orders and their statuses

`order.hpp`, `order.cpp` and `types.hpp`, of which the spot client and the
order client have copies.  The copies differ in one entry of `toOrderStatus`.
-/

namespace ExchangeConnectivity

open ByteStrings

/-- A scaled value with eight decimal places. -/
structure Price where
  raw : Int64
  deriving DecidableEq

structure Quantity where
  raw : Int64
  deriving DecidableEq

def decimalPlaces : Nat := 8

/-- `Side` is an enumeration over a byte, so a value can be none of the
declared ones. -/
inductive Side
  | buy
  | sell
  | undeclared (byte : UInt8) (outside : 2 ≤ byte.toNat)
  deriving DecidableEq

/-- As `Side`, an enumeration over a byte. -/
inductive OrderType
  | market
  | limit
  | undeclared (byte : UInt8) (outside : 2 ≤ byte.toNat)
  deriving DecidableEq

inductive OrderStatus
  | new
  | partiallyFilled
  | filled
  | cancelled
  | rejected
  deriving DecidableEq

structure OrderRequest where
  instrument : UInt32
  side : Side := .buy
  type : OrderType := .limit
  price : Price := ⟨0⟩
  quantity : Quantity := ⟨0⟩
  deriving DecidableEq

structure OrderSubmission where
  clientOrderId : UInt64
  exchangeOrderId : UInt64
  status : OrderStatus
  deriving DecidableEq

def Side.toText : Side → Bytes
  | .buy => ascii "BUY"
  | .sell => ascii "SELL"
  | .undeclared _ _ => []

def OrderType.toText : OrderType → Bytes
  | .market => ascii "MARKET"
  | .limit => ascii "LIMIT"
  | .undeclared _ _ => []

namespace BinanceSpotClient

def toOrderStatus (status : Bytes) : OrderStatus :=
  if status = ascii "NEW" then .new
  else if status = ascii "PARTIALLY_FILLED" then .partiallyFilled
  else if status = ascii "FILLED" then .filled
  else if status = ascii "CANCELED" ∨ status = ascii "CANCELLED" ∨
      status = ascii "EXPIRED" then .cancelled
  else if status = ascii "REJECTED" then .rejected
  else .new

end BinanceSpotClient

namespace BinanceOrderGateway

def toOrderStatus (status : Bytes) : OrderStatus :=
  if status = ascii "NEW" then .new
  else if status = ascii "PARTIALLY_FILLED" then .partiallyFilled
  else if status = ascii "FILLED" then .filled
  else if status = ascii "CANCELED" ∨ status = ascii "CANCELLED" then .cancelled
  else if status = ascii "REJECTED" then .rejected
  else .new

end BinanceOrderGateway

/-- The two tables differ for expired orders only. -/
theorem toOrderStatus_eq_iff (status : Bytes) :
    BinanceSpotClient.toOrderStatus status = BinanceOrderGateway.toOrderStatus status ↔
      status ≠ ascii "EXPIRED" := by
  by_cases expired : status = ascii "EXPIRED"
  · subst expired
    decide
  · simp [BinanceSpotClient.toOrderStatus, BinanceOrderGateway.toOrderStatus, expired]

end ExchangeConnectivity
