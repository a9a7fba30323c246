import ExchangeConnectivity.ConnectorParserDecimal
import ExchangeConnectivity.MarketDataParserDecimal

/-!
# Agreement of the two market-data parsers

The validating parser of `binance_connector` and the unchecked one read the
same depth messages.  On documents without duplicate keys whose decimal
strings have the wire form and are not the least 64-bit value, whatever the
validating parser accepts the unchecked one reads without overflow and with
the same result.
-/

namespace ExchangeConnectivity

open ByteStrings DecimalNumerals FailingComputations FixedWidth

/-- A string of the wire form whose scaled value is not the least 64-bit
integer. -/
def WireDecimal (text : Bytes) : Prop :=
  ∃ numeral : Numeral, text = numeral.spelling ∧ numeral.WireForm ∧
    numeral.value * 10 ^ 8 ≠ -2 ^ 63

/-- The magnitude of an accepted numeral is below `2 ^ 63`, the least value
apart. -/
theorem inRange_of_accepted {numeral : Numeral} {price : Int64}
    (accepted : Connector.parseDecimal numeral.spelling = .ok price)
    (notLeast : numeral.value * 10 ^ 8 ≠ -2 ^ 63) :
    BinanceMarketDataParser.InRange numeral := by
  have scaled := Connector.value_of_accepted accepted
  obtain ⟨lower, upper⟩ := fitsInt64_toInt price
  have lowerScaled : -2 ^ 63 ≤ numeral.value * 10 ^ 8 := by
    rw [← scaled]
    exact_mod_cast lower
  have upperScaled : numeral.value * 10 ^ 8 < 2 ^ 63 := by
    rw [← scaled]
    exact_mod_cast upper
  have scale : |numeral.value| * 10 ^ 8 = |numeral.value * 10 ^ 8| := by
    rw [abs_mul, abs_of_nonneg (by positivity : (0 : ℚ) ≤ 10 ^ 8)]
  rw [BinanceMarketDataParser.InRange, scale, abs_lt]
  exact ⟨lt_of_le_of_ne lowerScaled notLeast.symm, upperScaled⟩

theorem parseDecimal_agrees {text : Bytes} (wire : WireDecimal text) {price : Int64}
    (accepted : Connector.parseDecimal text = .ok price) :
    BinanceMarketDataParser.parseDecimal text = .ok price := by
  obtain ⟨numeral, rfl, wireForm, notLeast⟩ := wire
  have inRange := inRange_of_accepted accepted notLeast
  have priceEq := ((Connector.parseDecimal_spelling_eq_ok_iff numeral price).mp
    accepted).2
  rw [(BinanceMarketDataParser.parseDecimal_yieldsIf wireForm).yields inRange,
    ← priceEq, Int64.ofInt_toInt]

/-- The two leading strings of a level are wire decimals. -/
def WireLevel (level : Json) : Prop :=
  ∀ price quantity rest,
    level = .array (.string price :: .string quantity :: rest) →
      WireDecimal price ∧ WireDecimal quantity

/-- The two parsers represent a level as a structure and as a pair. -/
def levelPair (level : Connector.BookLevel) : Int64 × Int64 :=
  (level.price, level.quantity)

theorem parseString_ok {json : Json} {text : Bytes}
    (accepted : Connector.parseString json = .ok text) : json = .string text := by
  cases json with
  | string value =>
      cases accepted
      rfl
  | _ => cases accepted

variable {boost : BoostJson.Library} (simdjson : Simdjson.Library)

theorem parseLevel_agrees {level : Json} (wire : WireLevel level)
    {result : Connector.BookLevel}
    (accepted : Connector.parseBookLevel level = .ok result) :
    BinanceMarketDataParser.parseLevel simdjson level = .ok (levelPair result) := by
  match level with
  | .array (price :: quantity :: rest) =>
      simp only [Connector.parseBookLevel, bind_eq_ok_iff] at accepted
      obtain ⟨priceText, priceString, priceValue, priceParsed, quantityText,
        quantityString, quantityValue, quantityParsed, resultEq⟩ := accepted
      cases parseString_ok priceString
      cases parseString_ok quantityString
      cases resultEq
      obtain ⟨priceWire, quantityWire⟩ := wire priceText quantityText rest rfl
      have priceAgrees := parseDecimal_agrees priceWire priceParsed
      have quantityAgrees := parseDecimal_agrees quantityWire quantityParsed
      rw [BinanceMarketDataParser.parseLevel_of_strings simdjson rfl,
        BinanceMarketDataParser.parsePrice, priceAgrees, ok_bind,
        BinanceMarketDataParser.parseQuantity, quantityAgrees, ok_bind, levelPair]
  | .array [] | .array [_] => cases accepted
  | .null | .bool _ | .int64 _ | .uint64 _ | .double _ | .string _ | .object _ =>
      cases accepted

/-- The levels of an accepted side are read one by one with the same result. -/
theorem parseLevels_agree {side : Json} {levels : List Connector.BookLevel}
    (accepted : Connector.parseLevels side = .ok levels)
    (wire : ∀ elements, side = .array elements → ∀ level ∈ elements, WireLevel level) :
    ∃ elements, side = .array elements ∧
      List.Forall₂ (fun level pair =>
        BinanceMarketDataParser.parseLevel simdjson level = .ok pair)
        elements (levels.map levelPair) := by
  match side with
  | .array elements =>
      refine ⟨elements, rfl, ?_⟩
      have parsed := mapM_eq_ok_iff.mp accepted
      rw [List.forall₂_map_right_iff]
      have both := (List.forall₂_and_left elements levels).mpr
        ⟨wire elements rfl, parsed⟩
      exact both.imp fun _ _ related => parseLevel_agrees simdjson related.1 related.2
  | .null | .bool _ | .int64 _ | .uint64 _ | .double _ | .string _ | .object _ =>
      cases accepted

/-- A map filled by emplacing holds for each new key the first value given
for it. -/
theorem getElem?_foldl_insertIfNew (pairs : List (Int64 × Int64))
    (start : BinanceMarketDataParser.OrderBookLevels) (key : Int64) :
    (pairs.foldl (fun levels pair => levels.insertIfNew pair.1 pair.2) start)[key]? =
      start[key]?.or (pairs.lookup key) := by
  induction pairs generalizing start with
  | nil => simp
  | cons pair pairs ih =>
      obtain ⟨price, quantity⟩ := pair
      rw [List.foldl_cons, ih, Std.TreeMap.getElem?_insertIfNew, List.lookup_cons]
      simp only [Std.compare_eq_iff_eq, Std.TreeMap.mem_iff_isSome_getElem?]
      by_cases same : price = key
      · subst same
        cases found : start[price]? <;> simp
      · rw [if_neg (fun both => same both.1), beq_false_of_ne (Ne.symm same)]

theorem foldlM_emplaceLevel {elements : List Json} {pairs : List (Int64 × Int64)}
    (parsed : List.Forall₂ (fun level pair =>
      BinanceMarketDataParser.parseLevel simdjson level = .ok pair) elements pairs)
    (start : BinanceMarketDataParser.OrderBookLevels) :
    elements.foldlM (BinanceMarketDataParser.emplaceLevel simdjson) start =
      .ok (pairs.foldl (fun levels pair => levels.insertIfNew pair.1 pair.2) start) := by
  induction parsed generalizing start with
  | nil => rfl
  | cons head _ ih =>
      rw [List.foldlM_cons, BinanceMarketDataParser.emplaceLevel, head, ok_bind]
      exact ih _

/-- With distinct prices, the map holds exactly the levels. -/
theorem emplaced_levels {elements : List Json} {levels : List Connector.BookLevel}
    (parsed : List.Forall₂ (fun level pair =>
      BinanceMarketDataParser.parseLevel simdjson level = .ok pair)
      elements (levels.map levelPair))
    (distinct : (levels.map Connector.BookLevel.price).Nodup) :
    ∃ book : BinanceMarketDataParser.OrderBookLevels,
      elements.foldlM (BinanceMarketDataParser.emplaceLevel simdjson) ∅ = .ok book ∧
      ∀ price quantity, book[price]? = some quantity ↔
        { price, quantity } ∈ levels := by
  refine ⟨_, foldlM_emplaceLevel simdjson parsed ∅, ?_⟩
  intro price quantity
  have distinctKeys : ((levels.map levelPair).map Prod.fst).Nodup := by
    rwa [List.map_map]
  rw [getElem?_foldl_insertIfNew, Std.TreeMap.getElem?_emptyc, Option.none_or,
    lookup_eq_some_iff distinctKeys, List.mem_map]
  constructor
  · rintro ⟨level, member, pairEq⟩
    cases pairEq
    exact member
  · intro member
    exact ⟨_, member, rfl⟩

/-- The levels found under a key are wire levels. -/
def WireSide (fields : List (Bytes × Json)) (key : String) : Prop :=
  ∀ elements, fields.lookup (ascii key) = some (.array elements) →
    ∀ level ∈ elements, WireLevel level

theorem lookup_of_getRequired {fields : List (Bytes × Json)}
    (distinct : (fields.map Prod.fst).Nodup) {key : String} {value : Json}
    (found : Connector.getRequired boost fields key = .ok value) :
    fields.lookup (ascii key) = some value := by
  rw [Connector.getRequired, boost.ifContains_eq, BoostJson.lastField_eq_lookup distinct] at found
  cases looked : fields.lookup (ascii key) with
  | none =>
      rw [looked] at found
      cases found
  | some content =>
      rw [looked] at found
      cases found
      rfl

theorem isUnsigned_of_parseUnsigned {json : Json} {number : UInt64}
    (accepted : Connector.parseUnsigned json = .ok number) : json.IsUnsigned number := by
  cases json with
  | uint64 value =>
      cases accepted
      exact .inl rfl
  | int64 value =>
      rw [Connector.parseUnsigned] at accepted
      split at accepted
      · next nonnegative =>
          cases accepted
          exact .inr ⟨value, rfl, nonnegative, rfl⟩
      · cases accepted
  | _ => cases accepted

section Fields

variable {fields : List (Bytes × Json)} (distinct : (fields.map Prod.fst).Nodup)
variable {key : String} {value : Json}
variable (found : Connector.getRequired boost fields key = .ok value)
include distinct found

theorem uint64Field_agrees {number : UInt64}
    (parsed : Connector.parseUnsigned value = .ok number) :
    BinanceMarketDataParser.uint64Field simdjson (.object fields) key = .ok number :=
  (BinanceMarketDataParser.uint64Field_eq_ok_iff simdjson).mpr
    ⟨value, ⟨fields, rfl, lookup_of_getRequired distinct found⟩,
      isUnsigned_of_parseUnsigned parsed⟩

theorem arrayField_agrees {levels : List Connector.BookLevel}
    (wire : WireSide fields key) (parsed : Connector.parseLevels value = .ok levels) :
    ∃ elements,
      BinanceMarketDataParser.arrayField simdjson (.object fields) key = .ok elements ∧
      List.Forall₂ (fun level pair =>
        BinanceMarketDataParser.parseLevel simdjson level = .ok pair)
        elements (levels.map levelPair) := by
  have looked := lookup_of_getRequired distinct found
  obtain ⟨elements, rfl, agree⟩ := parseLevels_agree simdjson parsed
    fun elements shape => wire elements (shape ▸ looked)
  exact ⟨elements,
    (BinanceMarketDataParser.arrayField_eq_ok_iff simdjson).mpr ⟨fields, rfl, looked⟩, agree⟩

end Fields

section Agreement

variable {message : Bytes} {fields : List (Bytes × Json)}
variable (boostParsed : boost.parse message = .ok (.object fields))
variable (simdjsonParsed : simdjson.parse message = .ok (.object fields))
variable (distinct : (fields.map Prod.fst).Nodup)
include boostParsed simdjsonParsed distinct

theorem parseDepthUpdate_agrees (bidsWire : WireSide fields "b")
    (asksWire : WireSide fields "a") {update : Connector.DepthUpdate}
    (accepted : Connector.parseDepthUpdate boost message = .ok update) :
    BinanceMarketDataParser.parseDepthUpdate simdjson message =
      .ok
        { firstUpdateId := update.firstUpdateId
          lastUpdateId := update.lastUpdateId
          exchangeTimestamp := update.exchangeTimestamp
          bids := update.bids.map levelPair
          asks := update.asks.map levelPair } := by
  simp only [Connector.parseDepthUpdate, Connector.parseObject, boostParsed, ok_bind,
    bind_eq_ok_iff] at accepted
  obtain ⟨object, objectEq, _, firstFound, firstId, firstParsed, _, lastFound, lastId,
    lastParsed, _, timeFound, time, timeParsed, _, bidsFound, bids, bidsParsed, _,
    asksFound, asks, asksParsed, updateEq⟩ := accepted
  cases objectEq
  cases updateEq
  obtain ⟨bidElements, bidsRead, bidsAgree⟩ :=
    arrayField_agrees simdjson distinct bidsFound bidsWire bidsParsed
  obtain ⟨askElements, asksRead, asksAgree⟩ :=
    arrayField_agrees simdjson distinct asksFound asksWire asksParsed
  have documentRead : orThrow (simdjson.parse message) = .ok (.object fields) := by
    rw [simdjsonParsed]
    rfl
  rw [BinanceMarketDataParser.parseDepthUpdate, documentRead, ok_bind,
    uint64Field_agrees simdjson distinct timeFound timeParsed, ok_bind,
    uint64Field_agrees simdjson distinct firstFound firstParsed, ok_bind,
    uint64Field_agrees simdjson distinct lastFound lastParsed, ok_bind,
    bidsRead, ok_bind, mapM_eq_ok_iff.mpr bidsAgree, ok_bind,
    asksRead, ok_bind, mapM_eq_ok_iff.mpr asksAgree, ok_bind]
  rfl

theorem parseDepthSnapshot_agrees (bidsWire : WireSide fields "bids")
    (asksWire : WireSide fields "asks") {snapshot : Connector.Snapshot}
    (accepted : Connector.parseSnapshot boost message = .ok snapshot)
    (bidsDistinct : (snapshot.bids.map Connector.BookLevel.price).Nodup)
    (asksDistinct : (snapshot.asks.map Connector.BookLevel.price).Nodup) :
    ∃ book, BinanceMarketDataParser.parseDepthSnapshot simdjson message = .ok book ∧
      book.lastUpdateId = snapshot.lastUpdateId ∧
      (∀ price quantity, book.bids[price]? = some quantity ↔
        { price, quantity } ∈ snapshot.bids) ∧
      (∀ price quantity, book.asks[price]? = some quantity ↔
        { price, quantity } ∈ snapshot.asks) := by
  simp only [Connector.parseSnapshot, Connector.parseObject, boostParsed, ok_bind,
    bind_eq_ok_iff] at accepted
  obtain ⟨object, objectEq, _, lastFound, lastId, lastParsed, _, bidsFound, bids,
    bidsParsed, _, asksFound, asks, asksParsed, snapshotEq⟩ := accepted
  cases objectEq
  cases snapshotEq
  obtain ⟨bidElements, bidsRead, bidsAgree⟩ :=
    arrayField_agrees simdjson distinct bidsFound bidsWire bidsParsed
  obtain ⟨askElements, asksRead, asksAgree⟩ :=
    arrayField_agrees simdjson distinct asksFound asksWire asksParsed
  obtain ⟨bidBook, bidsEmplaced, bidsHeld⟩ := emplaced_levels simdjson bidsAgree bidsDistinct
  obtain ⟨askBook, asksEmplaced, asksHeld⟩ := emplaced_levels simdjson asksAgree asksDistinct
  have documentRead : orThrow (simdjson.parse message) = .ok (.object fields) := by
    rw [simdjsonParsed]
    rfl
  refine ⟨{ lastUpdateId := lastId, bids := bidBook, asks := askBook }, ?_, rfl,
    bidsHeld, asksHeld⟩
  rw [BinanceMarketDataParser.parseDepthSnapshot, documentRead, ok_bind,
    uint64Field_agrees simdjson distinct lastFound lastParsed, ok_bind,
    bidsRead, ok_bind, bidsEmplaced, ok_bind, asksRead, ok_bind, asksEmplaced, ok_bind]
  rfl

/-- On a document both libraries read alike, the unchecked parser returns
every depth update the validating one accepts, and fills its maps with
exactly the levels of every snapshot of distinct prices. -/
theorem depthParsers_agree :
    (∀ update, Connector.parseDepthUpdate boost message = .ok update →
      WireSide fields "b" → WireSide fields "a" →
      BinanceMarketDataParser.parseDepthUpdate simdjson message =
        .ok
          { firstUpdateId := update.firstUpdateId
            lastUpdateId := update.lastUpdateId
            exchangeTimestamp := update.exchangeTimestamp
            bids := update.bids.map levelPair
            asks := update.asks.map levelPair }) ∧
    (∀ snapshot, Connector.parseSnapshot boost message = .ok snapshot →
      WireSide fields "bids" → WireSide fields "asks" →
      (snapshot.bids.map Connector.BookLevel.price).Nodup →
      (snapshot.asks.map Connector.BookLevel.price).Nodup →
      ∃ book,
        BinanceMarketDataParser.parseDepthSnapshot simdjson message = .ok book ∧
        book.lastUpdateId = snapshot.lastUpdateId ∧
        (∀ price quantity, book.bids[price]? = some quantity ↔
          { price, quantity } ∈ snapshot.bids) ∧
        (∀ price quantity, book.asks[price]? = some quantity ↔
          { price, quantity } ∈ snapshot.asks)) := by
  constructor
  · intro update accepted bidsWire asksWire
    exact parseDepthUpdate_agrees simdjson boostParsed simdjsonParsed distinct bidsWire asksWire
      accepted
  · intro snapshot accepted bidsWire asksWire bidsDistinct asksDistinct
    exact parseDepthSnapshot_agrees simdjson boostParsed simdjsonParsed distinct bidsWire asksWire
      accepted bidsDistinct asksDistinct

end Agreement

/-! A message with one level on each side satisfies the assumptions. -/

def samplePrice : Numeral where
  sign := none
  integer := [0]
  fraction := some [0, 0, 2, 4]
  complete := by decide

def sampleQuantity : Numeral where
  sign := none
  integer := [1, 0]
  fraction := none
  complete := by decide

def sampleSide : Json :=
  .array [.array [.string (ascii "0.0024"), .string (ascii "10")]]

def sampleFields : List (Bytes × Json) :=
  [(ascii "E", .uint64 123456789), (ascii "U", .int64 157), (ascii "u", .int64 160),
    (ascii "b", sampleSide), (ascii "a", sampleSide),
    (ascii "lastUpdateId", .int64 160), (ascii "bids", sampleSide),
    (ascii "asks", sampleSide)]

theorem wireDecimal_of_signedUnits {numeral : Numeral} (wireForm : numeral.WireForm)
    (precise : numeral.Precise 8) (nonnegative : 0 ≤ numeral.signedUnits 8) :
    WireDecimal numeral.spelling := by
  refine ⟨numeral, rfl, wireForm, ?_⟩
  have scaled : (0 : ℚ) ≤ numeral.signedUnits 8 := by exact_mod_cast nonnegative
  rw [Numeral.value_scaled_of_precise precise]
  linarith

theorem sampleFields_wireSide {key : String}
    (looked : sampleFields.lookup (ascii key) = some sampleSide) :
    WireSide sampleFields key := by
  intro elements found level member price quantity rest shape
  rw [looked] at found
  cases found
  rw [List.mem_singleton.mp member] at shape
  cases shape
  exact ⟨wireDecimal_of_signedUnits (show samplePrice.WireForm by decide)
      (by decide) (by decide),
    wireDecimal_of_signedUnits (show sampleQuantity.WireForm by decide)
      (by decide) (by decide)⟩

theorem depthParsers_agree_sample :
    BinanceMarketDataParser.parseDepthUpdate (.documented fun _ => .ok (.object sampleFields)) [] =
      .ok
        { firstUpdateId := 157
          lastUpdateId := 160
          exchangeTimestamp := 123456789
          bids := [(240000, 1000000000)]
          asks := [(240000, 1000000000)] } ∧
    ∃ book, BinanceMarketDataParser.parseDepthSnapshot
        (.documented fun _ => .ok (.object sampleFields)) [] = .ok book ∧
      book.lastUpdateId = 160 ∧ book.bids[(240000 : Int64)]? = some 1000000000 := by
  obtain ⟨updates, snapshots⟩ :=
    @depthParsers_agree (.documented fun _ => .ok (.object sampleFields))
      (.documented fun _ => .ok (.object sampleFields)) [] sampleFields rfl rfl (by decide)
  constructor
  · exact updates
      { firstUpdateId := 157, lastUpdateId := 160, exchangeTimestamp := 123456789
        bids := [⟨240000, 1000000000⟩], asks := [⟨240000, 1000000000⟩] }
      (by decide) (sampleFields_wireSide rfl) (sampleFields_wireSide rfl)
  · obtain ⟨book, read, lastId, bids, -⟩ := snapshots
      { lastUpdateId := 160
        bids := [⟨240000, 1000000000⟩], asks := [⟨240000, 1000000000⟩] }
      (by decide) (sampleFields_wireSide rfl) (sampleFields_wireSide rfl)
      (by decide) (by decide)
    exact ⟨book, read, lastId, (bids _ _).mpr (by decide)⟩

end ExchangeConnectivity
