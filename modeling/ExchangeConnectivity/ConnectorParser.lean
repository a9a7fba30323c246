import ExchangeConnectivity.FixedWidth
import ExchangeConnectivity.JsonValues

/-!
# The validating market-data parser

`binance_connector/binance/parser.cpp`: decimal strings are checked character
by character against the range of a scaled 64-bit integer, and depth updates,
trades and snapshots are read from JSON through `boost::json`.
-/

namespace ExchangeConnectivity

open ByteStrings

namespace Connector

abbrev Price := Int64
abbrev Quantity := Int64
abbrev SequenceNumber := UInt64
abbrev Timestamp := UInt64

def decimalScale : Nat := 100000000

inductive Side
  | buy
  | sell
  deriving DecidableEq

structure BookLevel where
  price : Price
  quantity : Quantity
  deriving DecidableEq

structure Snapshot where
  lastUpdateId : SequenceNumber
  bids : List BookLevel
  asks : List BookLevel
  deriving DecidableEq

structure DepthUpdate where
  firstUpdateId : SequenceNumber
  lastUpdateId : SequenceNumber
  exchangeTimestamp : Timestamp
  bids : List BookLevel
  asks : List BookLevel
  deriving DecidableEq

structure Trade where
  sequence : SequenceNumber
  exchangeTimestamp : Timestamp
  price : Price
  quantity : Quantity
  side : Side
  deriving DecidableEq

def uint64 : Nat → Except Fault Nat :=
  FixedWidth.checkUInt64 .overflow

def uint64Sub : Nat → Nat → Except Fault Nat :=
  FixedWidth.checkUInt64Sub .overflow

/-- `std::numeric_limits<Price>::max()` as an unsigned number. -/
def maxValue : Nat := 2 ^ 63 - 1

/-- The largest magnitude the sign of a decimal string allows. -/
def decimalLimit (negative : Bool) : Nat :=
  if negative then maxValue + 1 else maxValue

/-- The local variables of the character loop of `parseDecimal`. -/
structure DecimalScan where
  integerPart : Nat := 0
  fractionalPart : Nat := 0
  fractionalScale : Nat := 1
  hasIntegerDigit : Bool := false
  hasFractionalDigit : Bool := false
  fractionalPartStarted : Bool := false
  deriving DecidableEq

/-- One iteration of the character loop. -/
def scanCharacter (limit : Nat) (scan : DecimalScan) (character : UInt8) :
    Except Fault DecimalScan :=
  if character = '.'.toUInt8 then
    if scan.fractionalPartStarted then
      throw (.invalidArgument "Invalid decimal value")
    else
      pure { scan with fractionalPartStarted := true }
  else if character < '0'.toUInt8 ∨ character > '9'.toUInt8 then
    throw (.invalidArgument "Invalid decimal digit")
  else
    let digit := character.toNat - '0'.toNat
    if ¬ scan.fractionalPartStarted then do
      let room ← uint64Sub (limit / decimalScale) digit
      if scan.integerPart > room / 10 then
        throw (.outOfRange "Decimal value is out of range")
      else
        let integerPart ← uint64 (scan.integerPart * 10 + digit)
        pure { scan with integerPart, hasIntegerDigit := true }
    else if scan.fractionalScale < decimalScale then do
      let fractionalPart ← uint64 (scan.fractionalPart * 10 + digit)
      let fractionalScale ← uint64 (scan.fractionalScale * 10)
      pure { scan with fractionalPart, fractionalScale, hasFractionalDigit := true }
    else if digit ≠ 0 then
      throw (.outOfRange "Decimal value has excessive precision")
    else
      pure { scan with hasFractionalDigit := true }

/-- The checks and the combination after the character loop. -/
def finishDecimal (negative : Bool) (limit : Nat) (scan : DecimalScan) :
    Except Fault Price :=
  if ¬ scan.hasIntegerDigit ∧ ¬ scan.hasFractionalDigit then
    throw (.invalidArgument "Invalid decimal value")
  else if scan.fractionalPartStarted ∧ ¬ scan.hasFractionalDigit then
    throw (.invalidArgument "Invalid decimal value")
  else do
    let fractionalPart ←
      uint64 (scan.fractionalPart * (decimalScale / scan.fractionalScale))
    if scan.integerPart > limit / decimalScale then
      throw (.outOfRange "Decimal value is out of range")
    else
      let scaledInteger ← uint64 (scan.integerPart * decimalScale)
      let room ← uint64Sub limit scaledInteger
      if fractionalPart > room then
        throw (.outOfRange "Decimal value is out of range")
      else
        let result ← uint64 (scaledInteger + fractionalPart)
        if negative then
          if result = maxValue + 1 then pure Int64.minValue
          else pure (Int64.ofInt (-result))
        else
          pure (Int64.ofInt result)

/-- `parseDecimal` once the sign has been removed. -/
def parseMagnitude (negative : Bool) (value : Bytes) : Except Fault Price :=
  if value = [] then
    throw (.invalidArgument "Invalid decimal value")
  else do
    let scan ← value.foldlM (scanCharacter (decimalLimit negative)) {}
    finishDecimal negative (decimalLimit negative) scan

def parseDecimal (value : Bytes) : Except Fault Price :=
  match value with
  | [] => throw (.invalidArgument "Empty decimal value")
  | front :: rest =>
      if front = '-'.toUInt8 then parseMagnitude true rest
      else if front = '+'.toUInt8 then parseMagnitude false rest
      else parseMagnitude false (front :: rest)

def getRequired (boost : BoostJson.Library) (object : List (Bytes × Json)) (key : String) :
    Except Fault Json :=
  match boost.ifContains object key with
  | none => throw (.invalidArgument ("Missing JSON field: " ++ key))
  | some value => pure value

def parseUnsigned : Json → Except Fault UInt64
  | .uint64 value => pure value
  | .int64 value =>
      if value ≥ 0 then pure value.toUInt64
      else throw (.invalidArgument "Expected a non-negative integer")
  | _ => throw (.invalidArgument "Expected a non-negative integer")

def parseString : Json → Except Fault Bytes
  | .string value => pure value
  | _ => throw (.invalidArgument "Expected a JSON string")

def parseBookLevel : Json → Except Fault BookLevel
  | .array (price :: quantity :: _) => do
      let price ← parseDecimal (← parseString price)
      let quantity ← parseDecimal (← parseString quantity)
      pure { price, quantity }
  | _ => throw (.invalidArgument "Invalid order book level")

def parseLevels : Json → Except Fault (List BookLevel)
  | .array levels => levels.mapM parseBookLevel
  | _ => throw (.invalidArgument "Expected an array of order book levels")

section Messages

variable (boost : BoostJson.Library)

def parseObject (message : Bytes) : Except Fault (List (Bytes × Json)) := do
  match ← boost.parse message with
  | .object fields => pure fields
  | _ => throw (.invalidArgument "Expected a JSON object")

def isSubscriptionResponse (message : Bytes) : Except Fault Bool := do
  match ← boost.parse message with
  | .object fields => pure (boost.ifContains fields "result").isSome
  | _ => pure false

def parseDepthUpdate (message : Bytes) : Except Fault DepthUpdate := do
  let object ← parseObject boost message
  let firstUpdateId ← parseUnsigned (← getRequired boost object "U")
  let lastUpdateId ← parseUnsigned (← getRequired boost object "u")
  let exchangeTimestamp ← parseUnsigned (← getRequired boost object "E")
  let bids ← parseLevels (← getRequired boost object "b")
  let asks ← parseLevels (← getRequired boost object "a")
  pure { firstUpdateId, lastUpdateId, exchangeTimestamp, bids, asks }

def parseTrade (message : Bytes) : Except Fault Trade := do
  let object ← parseObject boost message
  match ← getRequired boost object "m" with
  | .bool buyerIsMaker =>
      let sequence ← parseUnsigned (← getRequired boost object "t")
      let exchangeTimestamp ← parseUnsigned (← getRequired boost object "T")
      let price ← parseDecimal (← parseString (← getRequired boost object "p"))
      let quantity ← parseDecimal (← parseString (← getRequired boost object "q"))
      pure
        { sequence, exchangeTimestamp, price, quantity
          side := if buyerIsMaker then .sell else .buy }
  | _ => throw (.invalidArgument "Expected a boolean for field: m")

def parseSnapshot (message : Bytes) : Except Fault Snapshot := do
  let object ← parseObject boost message
  let lastUpdateId ← parseUnsigned (← getRequired boost object "lastUpdateId")
  let bids ← parseLevels (← getRequired boost object "bids")
  let asks ← parseLevels (← getRequired boost object "asks")
  pure { lastUpdateId, bids, asks }

end Messages

end Connector

end ExchangeConnectivity
