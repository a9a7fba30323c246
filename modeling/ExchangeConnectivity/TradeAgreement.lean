import ExchangeConnectivity.DepthMessages
import ExchangeConnectivity.MarketDataParserAgreement

/-!
# Trades as the two parsers read them

The validating parser takes the timestamp of a trade from `T`, the time of the
trade, and the unchecked one from `E`, the time of the event, which both use for
depth updates.  Everything else is read alike, so the two trades agree exactly
when the two times do.
-/

namespace ExchangeConnectivity

open ByteStrings DecimalNumerals FailingComputations FixedWidth

/-- The first field of this name has a value as described; the other library
finds the last one. -/
def HasFirstField (fields : List (Bytes × Json)) (key : String) (described : Json → Prop) :
    Prop :=
  ∃ value, fields.lookup (ascii key) = some value ∧ described value

/-- The last field of one name and the first of another denote one value. -/
def SameReading {Value : Type} (describes : Json → Value → Prop)
    (fields : List (Bytes × Json)) (lastKey firstKey : String) : Prop :=
  ∃ value, Connector.HasField fields lastKey (describes · value) ∧
    HasFirstField fields firstKey (describes · value)

/-- The JSON value is a string of the wire form for so many
hundred-millionths. -/
def IsDecimal (json : Json) (units : Int) : Prop :=
  ∃ numeral : Numeral, json = .string numeral.spelling ∧ numeral.WireForm ∧
    numeral.signedUnits 8 = units

def IsFlag (json : Json) (value : Bool) : Prop :=
  json = .bool value

theorem isUnsigned_functional {json : Json} {first second : UInt64}
    (isFirst : Json.IsUnsigned json first) (isSecond : Json.IsUnsigned json second) :
    first = second := by
  rw [← Connector.parseUnsigned_eq_ok_iff] at isFirst isSecond
  exact Except.ok.inj (isFirst.symm.trans isSecond)

theorem isFlag_functional {json : Json} {first second : Bool} (isFirst : IsFlag json first)
    (isSecond : IsFlag json second) : first = second :=
  Json.bool.inj (isFirst.symm.trans isSecond)

theorem isDecimal_functional {json : Json} {first second : Int}
    (isFirst : IsDecimal json first) (isSecond : IsDecimal json second) : first = second := by
  obtain ⟨numeral, shape, -, rfl⟩ := isFirst
  obtain ⟨other, otherShape, -, rfl⟩ := isSecond
  have spelled := Json.string.inj (shape.symm.trans otherShape)
  rw [Numeral.spelling_injective spelled]

/-- Two readings are equal exactly when the fields denote one value. -/
theorem eq_iff_sameReading {Value : Type} (describes : Json → Value → Prop)
    (functional : ∀ {json : Json} {first second : Value},
      describes json first → describes json second → first = second)
    {fields : List (Bytes × Json)} {lastKey firstKey : String} {last first : Value}
    (isLast : Connector.HasField fields lastKey (describes · last))
    (isFirst : HasFirstField fields firstKey (describes · first)) :
    last = first ↔ SameReading describes fields lastKey firstKey := by
  constructor
  · rintro rfl
    exact ⟨last, isLast, isFirst⟩
  · rintro ⟨value, ⟨lastJson, lastFound, lastValue⟩, firstJson, firstFound, firstValue⟩
    obtain ⟨json, found, describesLast⟩ := isLast
    obtain ⟨otherJson, otherFound, describesFirst⟩ := isFirst
    obtain rfl : json = lastJson := Option.some.inj (found.symm.trans lastFound)
    obtain rfl : otherJson = firstJson := Option.some.inj (otherFound.symm.trans firstFound)
    rw [functional describesLast lastValue, functional describesFirst firstValue]

/-- The first field of an object, found among its fields. -/
theorem firstField_object_iff {fields : List (Bytes × Json)} {key : String} {content : Json} :
    (Json.object fields).FirstField key content ↔ fields.lookup (ascii key) = some content := by
  simp only [Json.FirstField, Json.object.injEq, exists_eq_left']

/-- Every string under the key has the wire form. -/
def WireStrings (fields : List (Bytes × Json)) (key : String) : Prop :=
  ∀ text, (ascii key, Json.string text) ∈ fields →
    ∃ numeral : Numeral, text = numeral.spelling ∧ numeral.WireForm

theorem mem_of_lookup {fields : List (Bytes × Json)} {key : Bytes} {value : Json}
    (found : fields.lookup key = some value) : (key, value) ∈ fields := by
  obtain ⟨before, after, rfl, -⟩ := List.lookup_eq_some_iff.mp found
  exact List.mem_append_right before List.mem_cons_self

theorem mem_of_lastField {fields : List (Bytes × Json)} {key : String} {value : Json}
    (found : BoostJson.lastField fields key = some value) : (ascii key, value) ∈ fields :=
  List.mem_reverse.mp (mem_of_lookup found)

section Decimals

variable {boost : BoostJson.Library} {simdjson : Simdjson.Library}
variable {fields : List (Bytes × Json)} {key : String} (wire : WireStrings fields key)
include wire

theorem lastDecimal_of_accepted {json : Json} {text : Bytes} {price : Int64}
    (found : Connector.getRequired boost fields key = .ok json)
    (isString : Connector.parseString json = .ok text)
    (accepted : Connector.parseDecimal text = .ok price) :
    Connector.HasField fields key (IsDecimal · price.toInt) := by
  rw [Connector.getRequired_eq_ok_iff] at found
  rw [Connector.parseString_eq_ok_iff] at isString
  subst isString
  obtain ⟨numeral, rfl, wireForm⟩ := wire text (mem_of_lastField found)
  have priceEq := ((Connector.parseDecimal_spelling_eq_ok_iff numeral price).mp accepted).2
  exact ⟨_, found, numeral, rfl, wireForm, priceEq.symm⟩

theorem firstDecimal_of_accepted {text : Bytes} {price : Int64}
    (isString : BinanceMarketDataParser.stringField simdjson (.object fields) key = .ok text)
    (accepted : BinanceMarketDataParser.parseDecimal text = .ok price) :
    HasFirstField fields key (IsDecimal · price.toInt) := by
  have found := firstField_object_iff.mp
    ((BinanceMarketDataParser.stringField_eq_ok_iff simdjson).mp isString)
  obtain ⟨numeral, rfl, wireForm⟩ := wire text (mem_of_lookup found)
  have yields := BinanceMarketDataParser.parseDecimal_yieldsIf wireForm
  have inRange := yields.needed ⟨price, accepted⟩
  have priceEq := Except.ok.inj ((yields.yields inRange).symm.trans accepted)
  refine ⟨_, found, numeral, rfl, wireForm, ?_⟩
  rw [← priceEq, BinanceMarketDataParser.toInt_signedUnits inRange,
    BinanceMarketDataParser.truncated, truncate_value_scaled]

end Decimals

/-- The two results describe the same trade. -/
structure SameTrade (trade : Connector.Trade) (other : BinanceMarketDataParser.Trade) :
    Prop where
  tradeId : trade.sequence = other.tradeId
  price : trade.price = other.price
  quantity : trade.quantity = other.quantity
  exchangeTimestamp : trade.exchangeTimestamp = other.exchangeTimestamp
  side : trade.side = .sell ↔ other.buyerIsMaker = true

/-- The time of the trade is the time of the event, and a repeated key repeats
its value. -/
structure SameReadings (fields : List (Bytes × Json)) : Prop where
  times : SameReading Json.IsUnsigned fields "T" "E"
  tradeId : SameReading Json.IsUnsigned fields "t" "t"
  price : SameReading IsDecimal fields "p" "p"
  quantity : SameReading IsDecimal fields "q" "q"
  buyerIsMaker : SameReading IsFlag fields "m" "m"

section Agreement

variable {boost : BoostJson.Library} {simdjson : Simdjson.Library}
variable {message : Bytes} {fields : List (Bytes × Json)}

/-- What the validating parser has read when it accepts a trade. -/
theorem readings_of_parseTrade (boostParsed : boost.parse message = .ok (.object fields))
    (priceWire : WireStrings fields "p") (quantityWire : WireStrings fields "q")
    {trade : Connector.Trade} (accepted : Connector.parseTrade boost message = .ok trade) :
    Connector.HasField fields "t" (Json.IsUnsigned · trade.sequence) ∧
      Connector.HasField fields "T" (Json.IsUnsigned · trade.exchangeTimestamp) ∧
      Connector.HasField fields "p" (IsDecimal · trade.price.toInt) ∧
      Connector.HasField fields "q" (IsDecimal · trade.quantity.toInt) ∧
      Connector.HasField fields "m" (IsFlag · (decide (trade.side = .sell))) := by
  simp only [Connector.parseTrade, Connector.parseObject, boostParsed, ok_bind,
    bind_eq_ok_iff] at accepted
  obtain ⟨object, objectEq, flag, flagFound, accepted⟩ := accepted
  cases objectEq
  cases flag with
  | bool buyerIsMaker =>
      obtain ⟨_, idFound, id, idRead, _, timeFound, time, timeRead, _, priceFound, priceText,
        priceString, price, priceRead, _, quantityFound, quantityText, quantityString, quantity,
        quantityRead, tradeEq⟩ := by
        simpa only [bind_eq_ok_iff] using accepted
      cases tradeEq
      refine ⟨⟨_, (Connector.getRequired_eq_ok_iff _ _ _ _).mp idFound,
          (Connector.parseUnsigned_eq_ok_iff _ _).mp idRead⟩,
        ⟨_, (Connector.getRequired_eq_ok_iff _ _ _ _).mp timeFound,
          (Connector.parseUnsigned_eq_ok_iff _ _).mp timeRead⟩,
        lastDecimal_of_accepted priceWire priceFound priceString priceRead,
        lastDecimal_of_accepted quantityWire quantityFound quantityString quantityRead,
        ⟨_, (Connector.getRequired_eq_ok_iff _ _ _ _).mp flagFound, ?_⟩⟩
      cases buyerIsMaker <;> rfl
  | _ => cases accepted

/-- What the unchecked parser has read. -/
theorem firstReadings_of_parseTrade
    (simdjsonParsed : simdjson.parse message = .ok (.object fields))
    (priceWire : WireStrings fields "p") (quantityWire : WireStrings fields "q")
    {trade : BinanceMarketDataParser.Trade}
    (accepted : BinanceMarketDataParser.parseTrade simdjson message = .ok trade) :
    HasFirstField fields "t" (Json.IsUnsigned · trade.tradeId) ∧
      HasFirstField fields "E" (Json.IsUnsigned · trade.exchangeTimestamp) ∧
      HasFirstField fields "p" (IsDecimal · trade.price.toInt) ∧
      HasFirstField fields "q" (IsDecimal · trade.quantity.toInt) ∧
      HasFirstField fields "m" (IsFlag · trade.buyerIsMaker) := by
  have documentRead : orThrow (simdjson.parse message) = .ok (.object fields) := by
    rw [simdjsonParsed]
    rfl
  simp only [BinanceMarketDataParser.parseTrade, documentRead, ok_bind,
    BinanceMarketDataParser.priceField, BinanceMarketDataParser.quantityField,
    bind_eq_ok_iff] at accepted
  obtain ⟨symbol, _, id, idRead, price, ⟨priceText, priceString, priceRead⟩, quantity,
    ⟨quantityText, quantityString, quantityRead⟩, time, timeRead, tradeTime, _, flag, flagRead,
    tradeEq⟩ := accepted
  cases tradeEq
  rw [BinanceMarketDataParser.uint64Field_eq_ok_iff] at idRead timeRead
  rw [BinanceMarketDataParser.boolField_eq_ok_iff] at flagRead
  simp only [firstField_object_iff] at idRead timeRead flagRead
  exact ⟨idRead, timeRead, firstDecimal_of_accepted priceWire priceString priceRead,
    firstDecimal_of_accepted quantityWire quantityString quantityRead, _, flagRead, rfl⟩

/-- The last and the first field of a name are one if the names are distinct. -/
theorem hasFirstField_iff_hasField (distinct : (fields.map Prod.fst).Nodup) (key : String)
    (described : Json → Prop) :
    HasFirstField fields key described ↔ Connector.HasField fields key described := by
  rw [HasFirstField, Connector.HasField, BoostJson.lastField_eq_lookup distinct]

end Agreement

/-- The time of the trade and the time of the event are the same number. -/
def SameTimes (fields : List (Bytes × Json)) : Prop :=
  SameReading Json.IsUnsigned fields "T" "E"

/-- Two trades read from one object with prices and quantities of the wire
form agree exactly when the fields they were read from do, which for distinct
keys is that the two times are equal. -/
theorem tradeParsers_agree_iff {boost : BoostJson.Library} {simdjson : Simdjson.Library}
    {message : Bytes} {fields : List (Bytes × Json)}
    (boostParsed : boost.parse message = .ok (.object fields))
    (simdjsonParsed : simdjson.parse message = .ok (.object fields))
    (priceWire : WireStrings fields "p") (quantityWire : WireStrings fields "q")
    {trade : Connector.Trade} (accepted : Connector.parseTrade boost message = .ok trade)
    {other : BinanceMarketDataParser.Trade}
    (otherAccepted : BinanceMarketDataParser.parseTrade simdjson message = .ok other) :
    (SameTrade trade other ↔ SameReadings fields) ∧
      ((fields.map Prod.fst).Nodup → (SameReadings fields ↔ SameTimes fields)) := by
  obtain ⟨id, time, price, quantity, flag⟩ :=
    readings_of_parseTrade boostParsed priceWire quantityWire accepted
  obtain ⟨otherId, otherTime, otherPrice, otherQuantity, otherFlag⟩ :=
    firstReadings_of_parseTrade simdjsonParsed priceWire quantityWire otherAccepted
  have idIff :=
    eq_iff_sameReading Json.IsUnsigned isUnsigned_functional id otherId
  have timeIff :=
    eq_iff_sameReading Json.IsUnsigned isUnsigned_functional time otherTime
  have priceIff := eq_iff_sameReading IsDecimal isDecimal_functional price otherPrice
  have quantityIff :=
    eq_iff_sameReading IsDecimal isDecimal_functional quantity otherQuantity
  have flagIff := eq_iff_sameReading IsFlag isFlag_functional flag otherFlag
  rw [Int64.toInt_inj] at priceIff quantityIff
  rw [Bool.eq_iff_iff, decide_eq_true_iff] at flagIff
  constructor
  · constructor
    · intro same
      exact
        { times := timeIff.mp same.exchangeTimestamp
          tradeId := idIff.mp same.tradeId
          price := priceIff.mp same.price
          quantity := quantityIff.mp same.quantity
          buyerIsMaker := flagIff.mp same.side }
    · intro same
      exact
        { tradeId := idIff.mpr same.tradeId
          price := priceIff.mpr same.price
          quantity := quantityIff.mpr same.quantity
          exchangeTimestamp := timeIff.mpr same.times
          side := flagIff.mpr same.buyerIsMaker }
  · intro distinct
    refine ⟨SameReadings.times, fun times => ?_⟩
    simp only [SameTimes] at times
    exact
      { times
        tradeId := ⟨_, id, (hasFirstField_iff_hasField distinct _ _).mpr id⟩
        price := ⟨_, price, (hasFirstField_iff_hasField distinct _ _).mpr price⟩
        quantity := ⟨_, quantity, (hasFirstField_iff_hasField distinct _ _).mpr quantity⟩
        buyerIsMaker := ⟨_, flag, (hasFirstField_iff_hasField distinct _ _).mpr flag⟩ }

/-! A trade reported a millisecond after it was made. -/

def tradeFields (eventTime tradeTime : UInt64) : List (Bytes × Json) :=
  [(ascii "E", .uint64 eventTime), (ascii "s", .string (ascii "BNBBTC")),
    (ascii "t", .uint64 12345), (ascii "p", .string (ascii "0.0024")),
    (ascii "q", .string (ascii "10")), (ascii "T", .uint64 tradeTime), (ascii "m", .bool true)]

theorem wireStrings_of_lookup {fields : List (Bytes × Json)}
    (distinct : (fields.map Prod.fst).Nodup) {key : String} {numeral : Numeral}
    (found : fields.lookup (ascii key) = some (.string numeral.spelling))
    (wireForm : numeral.WireForm) : WireStrings fields key := by
  intro text member
  rw [← lookup_eq_some_iff distinct, found] at member
  cases member
  exact ⟨numeral, rfl, wireForm⟩

theorem tradeFields_distinct (eventTime tradeTime : UInt64) :
    ((tradeFields eventTime tradeTime).map Prod.fst).Nodup := by
  simp only [tradeFields, List.map_cons, List.map_nil]
  decide

theorem tradeFields_priceWire (eventTime tradeTime : UInt64) :
    WireStrings (tradeFields eventTime tradeTime) "p" :=
  @wireStrings_of_lookup _ (tradeFields_distinct eventTime tradeTime) _ samplePrice rfl
    (by decide)

theorem tradeFields_quantityWire (eventTime tradeTime : UInt64) :
    WireStrings (tradeFields eventTime tradeTime) "q" :=
  @wireStrings_of_lookup _ (tradeFields_distinct eventTime tradeTime) _ sampleQuantity rfl
    (by decide)

theorem tradeParsers_agree_prompt :
    SameTrade
      { sequence := 12345, exchangeTimestamp := 1672515782136, price := 240000
        quantity := 1000000000, side := .sell }
      { symbol := ascii "BNBBTC", tradeId := 12345, price := 240000, quantity := 1000000000
        exchangeTimestamp := 1672515782136, tradeTimestamp := 1672515782136
        buyerIsMaker := true } := by
  have time : Json.IsUnsigned (.uint64 1672515782136) 1672515782136 := .inl rfl
  obtain ⟨agreeIff, timesIff⟩ :=
    @tradeParsers_agree_iff
      (.documented fun _ => .ok (.object (tradeFields 1672515782136 1672515782136)))
      (.documented fun _ => .ok (.object (tradeFields 1672515782136 1672515782136))) [] _ rfl rfl
      (tradeFields_priceWire _ _) (tradeFields_quantityWire _ _) _ (by rfl) _ (by rfl)
  exact agreeIff.mpr ((timesIff (tradeFields_distinct _ _)).mpr
    ⟨_, ⟨_, rfl, time⟩, ⟨_, rfl, time⟩⟩)

/-- A trade reported a millisecond after it was made has two timestamps. -/
theorem delayed_trade_timestamps_differ :
    let fields := tradeFields 1672515782136 1672515782135
    WireStrings fields "p" ∧ WireStrings fields "q" ∧
      ∃ trade other,
        Connector.parseTrade (.documented fun _ => .ok (.object fields)) [] = .ok trade ∧
        BinanceMarketDataParser.parseTrade (.documented fun _ => .ok (.object fields)) [] =
          .ok other ∧
        trade.exchangeTimestamp = 1672515782135 ∧ other.exchangeTimestamp = 1672515782136 ∧
        ¬ SameTrade trade other := by
  refine ⟨tradeFields_priceWire _ _, tradeFields_quantityWire _ _, ?_⟩
  refine ⟨_, _, by rfl, by rfl, rfl, rfl, fun same => ?_⟩
  exact absurd same.exchangeTimestamp (by decide)

end ExchangeConnectivity
