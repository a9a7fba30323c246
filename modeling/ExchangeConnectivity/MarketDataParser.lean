import ExchangeConnectivity.FixedWidth
import ExchangeConnectivity.JsonValues
import Std.Data.TreeMap

/-!
# The market-data parser

`binance/binance_market_data_parser.cpp`, which reads market-data messages
through `simdjson` and converts decimal strings without range checks, and its
copy `binance_data_parser/BinanceDataParser.cpp`.
-/

namespace ExchangeConnectivity

open ByteStrings FailingComputations

namespace BinanceMarketDataParser

abbrev Price := Int64
abbrev Quantity := Int64
abbrev SequenceNumber := UInt64
abbrev Timestamp := UInt64
abbrev TradeId := UInt64

/-- `std::map<Price, Quantity>`. -/
abbrev OrderBookLevels := Std.TreeMap Price Quantity

structure DepthSnapshot where
  lastUpdateId : SequenceNumber
  bids : OrderBookLevels
  asks : OrderBookLevels

structure DepthUpdate where
  firstUpdateId : SequenceNumber
  lastUpdateId : SequenceNumber
  exchangeTimestamp : Timestamp
  bids : List (Price × Quantity)
  asks : List (Price × Quantity)
  deriving DecidableEq

structure Trade where
  symbol : Bytes
  tradeId : TradeId
  price : Price
  quantity : Quantity
  exchangeTimestamp : Timestamp
  tradeTimestamp : Timestamp
  buyerIsMaker : Bool
  deriving DecidableEq

structure AggregateTrade where
  symbol : Bytes
  aggregateTradeId : TradeId
  firstTradeId : TradeId
  lastTradeId : TradeId
  price : Price
  quantity : Quantity
  exchangeTimestamp : Timestamp
  tradeTimestamp : Timestamp
  buyerIsMaker : Bool
  deriving DecidableEq

structure BookTicker where
  symbol : Bytes
  updateId : SequenceNumber
  bidPrice : Price
  bidQuantity : Quantity
  askPrice : Price
  askQuantity : Quantity
  deriving DecidableEq

structure Kline where
  symbol : Bytes
  interval : Bytes
  openTimestamp : Timestamp
  closeTimestamp : Timestamp
  firstTradeId : TradeId
  lastTradeId : TradeId
  openPrice : Price
  highPrice : Price
  lowPrice : Price
  closePrice : Price
  volume : Quantity
  tradeCount : UInt64
  quoteAssetVolume : Quantity
  takerBuyBaseAssetVolume : Quantity
  takerBuyQuoteAssetVolume : Quantity
  closed : Bool
  deriving DecidableEq

/-- The percentage is a `double`, whose type is left open. -/
structure Ticker (Double : Type) where
  symbol : Bytes
  priceChange : Price
  priceChangePercent : Double
  weightedAveragePrice : Price
  previousClosePrice : Price
  lastPrice : Price
  lastQuantity : Quantity
  bidPrice : Price
  bidQuantity : Quantity
  askPrice : Price
  askQuantity : Quantity
  openPrice : Price
  highPrice : Price
  lowPrice : Price
  volume : Quantity
  quoteAssetVolume : Quantity
  openTimestamp : Timestamp
  closeTimestamp : Timestamp
  firstTradeId : TradeId
  lastTradeId : TradeId
  tradeCount : UInt64
  firstUpdateId : SequenceNumber
  lastUpdateId : SequenceNumber
  exchangeTimestamp : Timestamp

def decimalScale : Int := 100000000

def int64 : Int → Except Fault Int :=
  FixedWidth.checkInt64 .overflow

/-- `character - '0'` on a signed `char`. -/
def digitOf (character : UInt8) : Int :=
  character.toInt8.toInt - '0'.toNat

/-- The loop up to the point, with the characters it leaves. -/
def readInteger (integerPart : Int) : Bytes → Except Fault (Int × Bytes)
  | [] => pure (integerPart, [])
  | character :: rest =>
      if character = '.'.toUInt8 then pure (integerPart, character :: rest)
      else do
        let shifted ← int64 (integerPart * 10)
        let integerPart ← int64 (shifted + digitOf character)
        readInteger integerPart rest

/-- The loop over at most eight fractional characters. -/
def readFraction (fractionalPart : Int) (fractionalDigits : Nat) :
    Bytes → Except Fault (Int × Nat)
  | [] => pure (fractionalPart, fractionalDigits)
  | character :: rest =>
      if fractionalDigits < 8 then do
        let shifted ← int64 (fractionalPart * 10)
        let fractionalPart ← int64 (shifted + digitOf character)
        readFraction fractionalPart (fractionalDigits + 1) rest
      else pure (fractionalPart, fractionalDigits)

/-- The loop that fills the fraction up to eight digits, by the number of
rounds it makes. -/
def fillFraction : Nat → Int → Except Fault Int
  | 0, fractionalPart => pure fractionalPart
  | rounds + 1, fractionalPart => do
      let fractionalPart ← int64 (fractionalPart * 10)
      fillFraction rounds fractionalPart

/-- The fraction after the integer loop, of which a point is left if any
character is. -/
def parseFraction : Bytes → Except Fault Int
  | [] => fillFraction 8 0
  | _ :: rest => do
      let (fractionalPart, fractionalDigits) ← readFraction 0 0 rest
      fillFraction (8 - fractionalDigits) fractionalPart

/-- The result of the loops with the sign applied. -/
def finishDecimal (negative : Bool) (integerPart fractionalPart : Int) :
    Except Fault Int64 := do
  let scaled ← int64 (integerPart * decimalScale)
  let result ← int64 (scaled + fractionalPart)
  let signed ← if negative then int64 (-result) else pure result
  pure (Int64.ofInt signed)

def parseDecimal (value : Bytes) : Except Fault Int64 := do
  let negative : Bool := value.head? = some '-'.toUInt8
  let (integerPart, rest) ← readInteger 0 (if negative then value.drop 1 else value)
  let fractionalPart ← parseFraction rest
  finishDecimal negative integerPart fractionalPart

def parsePrice (value : Bytes) : Except Fault Price :=
  parseDecimal value

def parseQuantity (value : Bytes) : Except Fault Quantity :=
  parseDecimal value

section Messages

variable (simdjson : Simdjson.Library)

def uint64Field (element : Json) (key : String) : Except Fault UInt64 :=
  orThrow (simdjson.field element key >>= simdjson.getUint64)

def stringField (element : Json) (key : String) : Except Fault Bytes :=
  orThrow (simdjson.field element key >>= simdjson.getString)

def boolField (element : Json) (key : String) : Except Fault Bool :=
  orThrow (simdjson.field element key >>= simdjson.getBool)

def arrayField (element : Json) (key : String) : Except Fault (List Json) :=
  orThrow (simdjson.field element key >>= simdjson.getArray)

def priceField (element : Json) (key : String) : Except Fault Price := do
  parsePrice (← stringField simdjson element key)

def quantityField (element : Json) (key : String) : Except Fault Quantity := do
  parseQuantity (← stringField simdjson element key)

variable {json : Json} {key : String}

theorem uint64Field_eq_ok_iff {number : UInt64} :
    uint64Field simdjson json key = .ok number ↔
      ∃ content, json.FirstField key content ∧ content.IsUnsigned number :=
  orThrow_eq_ok_iff.trans (simdjson.field_bind_eq_ok_iff simdjson.getUint64_eq_ok_iff)

theorem stringField_eq_ok_iff {text : Bytes} :
    stringField simdjson json key = .ok text ↔ json.FirstField key (.string text) :=
  orThrow_eq_ok_iff.trans simdjson.field_getString_eq_ok_iff

theorem boolField_eq_ok_iff {value : Bool} :
    boolField simdjson json key = .ok value ↔ json.FirstField key (.bool value) := by
  refine orThrow_eq_ok_iff.trans ?_
  rw [simdjson.field_bind_eq_ok_iff simdjson.getBool_eq_ok_iff]
  exact exists_eq_right

theorem arrayField_eq_ok_iff {elements : List Json} :
    arrayField simdjson json key = .ok elements ↔ json.FirstField key (.array elements) :=
  orThrow_eq_ok_iff.trans simdjson.field_getArray_eq_ok_iff

/-- The body of the loops over bids and asks: the price and the quantity of a
level. -/
def parseLevel (level : Json) : Except Fault (Price × Quantity) := do
  let values ← orThrow (simdjson.getArray level)
  let price ← orThrow (simdjson.elementAt values 0 >>= simdjson.getString)
  let quantity ← orThrow (simdjson.elementAt values 1 >>= simdjson.getString)
  let price ← parsePrice price
  let quantity ← parseQuantity quantity
  pure (price, quantity)

/-- A level is read from its first two elements. -/
theorem parseLevel_of_strings {level : Json} {price quantity : Bytes} {rest : List Json}
    (pair : level = .array (.string price :: .string quantity :: rest)) :
    parseLevel simdjson level =
      parsePrice price >>= fun price =>
        parseQuantity quantity >>= fun quantity => .ok (price, quantity) := by
  have array := simdjson.getArray_eq_ok_iff.mpr pair
  have first : simdjson.elementAt (.string price :: .string quantity :: rest) 0 =
      .ok (.string price) := simdjson.elementAt_eq_ok_iff.mpr rfl
  have second : simdjson.elementAt (.string price :: .string quantity :: rest) 1 =
      .ok (.string quantity) := simdjson.elementAt_eq_ok_iff.mpr rfl
  have priceRead := simdjson.getString_eq_ok_iff.mpr (rfl : Json.string price = .string price)
  have quantityRead :=
    simdjson.getString_eq_ok_iff.mpr (rfl : Json.string quantity = .string quantity)
  simp only [parseLevel, array, first, second, priceRead, quantityRead, orThrow, ok_bind]
  rfl

/-- `emplace`, which keeps the quantity of a price already present. -/
def emplaceLevel (levels : OrderBookLevels) (level : Json) :
    Except Fault OrderBookLevels := do
  let (price, quantity) ← parseLevel simdjson level
  pure (levels.insertIfNew price quantity)

def parseDepthSnapshot (message : Bytes) : Except Fault DepthSnapshot := do
  let document ← orThrow (simdjson.parse message)
  let lastUpdateId ← uint64Field simdjson document "lastUpdateId"
  let bids ← (← arrayField simdjson document "bids").foldlM (emplaceLevel simdjson) ∅
  let asks ← (← arrayField simdjson document "asks").foldlM (emplaceLevel simdjson) ∅
  pure { lastUpdateId, bids, asks }

def parseDepthUpdate (message : Bytes) : Except Fault DepthUpdate := do
  let document ← orThrow (simdjson.parse message)
  let exchangeTimestamp ← uint64Field simdjson document "E"
  let firstUpdateId ← uint64Field simdjson document "U"
  let lastUpdateId ← uint64Field simdjson document "u"
  let bids ← (← arrayField simdjson document "b").mapM (parseLevel simdjson)
  let asks ← (← arrayField simdjson document "a").mapM (parseLevel simdjson)
  pure { firstUpdateId, lastUpdateId, exchangeTimestamp, bids, asks }

def parseTrade (message : Bytes) : Except Fault Trade := do
  let document ← orThrow (simdjson.parse message)
  let symbol ← stringField simdjson document "s"
  let tradeId ← uint64Field simdjson document "t"
  let price ← priceField simdjson document "p"
  let quantity ← quantityField simdjson document "q"
  let exchangeTimestamp ← uint64Field simdjson document "E"
  let tradeTimestamp ← uint64Field simdjson document "T"
  let buyerIsMaker ← boolField simdjson document "m"
  pure
    { symbol, tradeId, price, quantity, exchangeTimestamp, tradeTimestamp
      buyerIsMaker }

def parseAggregateTrade (message : Bytes) : Except Fault AggregateTrade := do
  let document ← orThrow (simdjson.parse message)
  let symbol ← stringField simdjson document "s"
  let aggregateTradeId ← uint64Field simdjson document "a"
  let price ← priceField simdjson document "p"
  let quantity ← quantityField simdjson document "q"
  let firstTradeId ← uint64Field simdjson document "f"
  let lastTradeId ← uint64Field simdjson document "l"
  let tradeTimestamp ← uint64Field simdjson document "T"
  let exchangeTimestamp ← uint64Field simdjson document "E"
  let buyerIsMaker ← boolField simdjson document "m"
  pure
    { symbol, aggregateTradeId, firstTradeId, lastTradeId, price, quantity
      exchangeTimestamp, tradeTimestamp, buyerIsMaker }

def parseBookTicker (message : Bytes) : Except Fault BookTicker := do
  let document ← orThrow (simdjson.parse message)
  let symbol ← stringField simdjson document "s"
  let updateId ← uint64Field simdjson document "u"
  let bidPrice ← priceField simdjson document "b"
  let bidQuantity ← quantityField simdjson document "B"
  let askPrice ← priceField simdjson document "a"
  let askQuantity ← quantityField simdjson document "A"
  pure { symbol, updateId, bidPrice, bidQuantity, askPrice, askQuantity }

def parseKline (message : Bytes) : Except Fault Kline := do
  let document ← orThrow (simdjson.parse message)
  let docKline ← orThrow (simdjson.field document "k")
  let symbol ← stringField simdjson docKline "s"
  let interval ← stringField simdjson docKline "i"
  let openTimestamp ← uint64Field simdjson docKline "t"
  let closeTimestamp ← uint64Field simdjson docKline "T"
  let firstTradeId ← uint64Field simdjson docKline "f"
  let lastTradeId ← uint64Field simdjson docKline "L"
  let openPrice ← priceField simdjson docKline "o"
  let highPrice ← priceField simdjson docKline "h"
  let lowPrice ← priceField simdjson docKline "l"
  let closePrice ← priceField simdjson docKline "c"
  let volume ← quantityField simdjson docKline "v"
  let tradeCount ← uint64Field simdjson docKline "n"
  let quoteAssetVolume ← quantityField simdjson docKline "q"
  let takerBuyBaseAssetVolume ← quantityField simdjson docKline "V"
  let takerBuyQuoteAssetVolume ← quantityField simdjson docKline "Q"
  let closed ← boolField simdjson docKline "x"
  pure
    { symbol, interval, openTimestamp, closeTimestamp, firstTradeId, lastTradeId
      openPrice, highPrice, lowPrice, closePrice, volume, tradeCount
      quoteAssetVolume, takerBuyBaseAssetVolume, takerBuyQuoteAssetVolume, closed }

/-- `stod` is `std::stod`, with its exceptions. -/
def parseTicker {Double : Type} (stod : Bytes → Except Fault Double)
    (message : Bytes) : Except Fault (Ticker Double) := do
  let document ← orThrow (simdjson.parse message)
  let symbol ← stringField simdjson document "s"
  let priceChange ← priceField simdjson document "p"
  let priceChangePercent ← stod (← stringField simdjson document "P")
  let weightedAveragePrice ← priceField simdjson document "w"
  let previousClosePrice ← priceField simdjson document "x"
  let lastPrice ← priceField simdjson document "c"
  let lastQuantity ← quantityField simdjson document "Q"
  let bidPrice ← priceField simdjson document "b"
  let bidQuantity ← quantityField simdjson document "B"
  let askPrice ← priceField simdjson document "a"
  let askQuantity ← quantityField simdjson document "A"
  let openPrice ← priceField simdjson document "o"
  let highPrice ← priceField simdjson document "h"
  let lowPrice ← priceField simdjson document "l"
  let volume ← quantityField simdjson document "v"
  let quoteAssetVolume ← quantityField simdjson document "q"
  let openTimestamp ← uint64Field simdjson document "O"
  let closeTimestamp ← uint64Field simdjson document "C"
  let firstTradeId ← uint64Field simdjson document "F"
  let lastTradeId ← uint64Field simdjson document "L"
  let tradeCount ← uint64Field simdjson document "n"
  let firstUpdateId ← uint64Field simdjson document "F"
  let lastUpdateId ← uint64Field simdjson document "L"
  let exchangeTimestamp ← uint64Field simdjson document "E"
  pure
    { symbol, priceChange, priceChangePercent, weightedAveragePrice
      previousClosePrice, lastPrice, lastQuantity, bidPrice, bidQuantity, askPrice
      askQuantity, openPrice, highPrice, lowPrice, volume, quoteAssetVolume
      openTimestamp, closeTimestamp, firstTradeId, lastTradeId, tradeCount
      firstUpdateId, lastUpdateId, exchangeTimestamp }

end Messages

end BinanceMarketDataParser

namespace BinanceDataParser

open BinanceMarketDataParser

def parseDecimal (value : Bytes) : Except Fault Int64 :=
  BinanceMarketDataParser.parseDecimal value

def parsePrice (value : Bytes) : Except Fault Price :=
  parseDecimal value

def parseQuantity (value : Bytes) : Except Fault Quantity :=
  parseDecimal value

def parseKline (simdjson : Simdjson.Library) (message : Bytes) :
    Except Fault Kline :=
  BinanceMarketDataParser.parseKline simdjson message

def parseTicker (simdjson : Simdjson.Library) {Double : Type}
    (stod : Bytes → Except Fault Double) (message : Bytes) :
    Except Fault (Ticker Double) :=
  BinanceMarketDataParser.parseTicker simdjson stod message

end BinanceDataParser

end ExchangeConnectivity
