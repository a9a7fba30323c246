import ExchangeConnectivity.BinanceSpotClient
import ExchangeConnectivity.PercentEncoding

/-!
# Signed queries of the spot client

A signed request carries a list of parameters, each a text, a number or a
scaled decimal.  This file shows that the target of every request the spot
client hands over splits into endpoint, payload and signature, and that the
payload decodes to exactly the parameters intended, so the exchange sees the
order that was signed.
-/

namespace ExchangeConnectivity

open ByteStrings DecimalNumerals PercentEncoding

namespace Utilities

theorem hexDigits_getD {nibble : Nat} (bound : nibble < 16) :
    hexDigits.getD nibble 0 = upperHexDigit nibble := by
  have all : ∀ digit : Fin 16, hexDigits.getD digit.val 0 = upperHexDigit digit.val := by
    decide
  exact all ⟨nibble, bound⟩

theorem hexCharacters_eq_hexPair (character : UInt8) :
    hexCharacters character = hexPair character := by
  have bound := character.toNat_lt
  have high : character.toNat >>> 4 = character.toNat / 16 :=
    Nat.shiftRight_eq_div_pow character.toNat 4
  have low : character.toNat &&& 0x0F = character.toNat % 16 :=
    Nat.and_two_pow_sub_one_eq_mod character.toNat 4
  rw [hexCharacters, high, low, hexDigits_getD (by omega), hexDigits_getD (by omega)]
  rfl

theorem toHex_eq_upperHex (data : Bytes) : toHex data = upperHex data := by
  unfold toHex upperHex
  rw [funext hexCharacters_eq_hexPair]

theorem urlEncode_eq_percentEncode (value : Bytes) :
    urlEncode value = percentEncode isUnreserved value := by
  unfold urlEncode percentEncode encodeByte
  simp only [hexCharacters_eq_hexPair]
  rfl

/-- Unreserved text is its own encoding. -/
theorem urlEncode_of_unreserved {value : Bytes}
    (unreserved : value.all isUnreserved = true) : urlEncode value = value := by
  induction value with
  | nil => rfl
  | cons character value ih =>
      rw [List.all_cons, Bool.and_eq_true] at unreserved
      rw [urlEncode, List.flatMap_cons, if_pos unreserved.1, ← urlEncode,
        ih unreserved.2]
      rfl

end Utilities

open Utilities

/-- The value of a request parameter. -/
inductive ParameterValue
  | text (value : Bytes)
  | number (value : UInt64)
  | decimal (raw : Int64)
  deriving DecidableEq

namespace ParameterValue

/-- The value before percent-encoding. -/
def plain : ParameterValue → Bytes
  | .text value => value
  | .number value => decimalBytes value.toNat
  | .decimal raw => BinanceSpotClient.toDecimalString raw decimalPlaces

/-- The value as it stands in a query. -/
def encoded : ParameterValue → Bytes
  | .text value => urlEncode value
  | .number value => decimalBytes value.toNat
  | .decimal raw => BinanceSpotClient.toDecimalString raw decimalPlaces

/-- What a receiver reads in a decoded value: the text itself, a decimal
number, or a price or quantity through the fixed-point parser. -/
def Denotes (bytes : Bytes) : ParameterValue → Prop
  | .text value => bytes = value
  | .number value => ∃ digits, digits ≠ [] ∧ bytes = digitBytes digits ∧
      digitsValue digits = value.toNat
  | .decimal raw => Connector.parseDecimal bytes = .ok raw

theorem plain_denotes (value : ParameterValue) : Denotes value.plain value := by
  cases value with
  | text value => rfl
  | number value =>
      exact ⟨decimalDigits value.toNat, decimalDigits_ne_nil _, rfl,
        digitsValue_decimalDigits _⟩
  | decimal raw => exact BinanceSpotClient.parseDecimal_toDecimalString raw

/-- Numbers and decimals are printed with the bytes of numerals only. -/
theorem not_mem_decimalBytes {byte : UInt8} (special : ¬ IsNumeralByte byte)
    (number : Nat) : byte ∉ decimalBytes number :=
  fun member => special (Or.inl (isDigitByte_of_mem_digitBytes member))

theorem not_mem_toDecimalString {byte : UInt8} (special : ¬ IsNumeralByte byte)
    (raw : Int64) : byte ∉ BinanceSpotClient.toDecimalString raw decimalPlaces := by
  intro member
  rw [decimalPlaces, BinanceSpotClient.toDecimalString_eq_spelling] at member
  exact special (Numeral.isNumeralByte_of_mem_spelling member)

theorem ampersand_not_mem_encoded (value : ParameterValue) :
    ampersandByte ∉ value.encoded := by
  cases value with
  | text value =>
      rw [encoded, urlEncode_eq_percentEncode]
      exact not_mem_percentEncode (by decide) (by decide) (by decide) value
  | number value => exact not_mem_decimalBytes (by decide) _
  | decimal raw => exact not_mem_toDecimalString (by decide) raw

theorem percentDecode_encoded (value : ParameterValue) :
    percentDecode value.encoded = some value.plain := by
  cases value with
  | text value =>
      rw [encoded, urlEncode_eq_percentEncode]
      exact percentDecode_percentEncode (by decide) value
  | number value => exact percentDecode_of_plain (not_mem_decimalBytes (by decide) _)
  | decimal raw => exact percentDecode_of_plain (not_mem_toDecimalString (by decide) raw)

end ParameterValue

abbrev Parameter := Bytes × ParameterValue

/-- The query of a list of parameters. -/
def encodedQuery (parameters : List Parameter) : Bytes :=
  renderQuery (parameters.map fun parameter => (parameter.1, parameter.2.encoded))

theorem encodedQuery_ne_nil {parameters : List Parameter} (nonempty : parameters ≠ []) :
    encodedQuery parameters ≠ [] :=
  renderQuery_ne_nil (by simpa using nonempty)

theorem encodedQuery_append {first second : List Parameter} (firstNonempty : first ≠ [])
    (secondNonempty : second ≠ []) :
    encodedQuery (first ++ second) =
      encodedQuery first ++ ampersandByte :: encodedQuery second := by
  unfold encodedQuery
  rw [List.map_append]
  exact renderQuery_append (by simpa using firstNonempty) (by simpa using secondNonempty)

/-- Parameters whose keys are alphanumeric, pairwise distinct and not
`signature`. -/
structure WellKeyed (parameters : List Parameter) : Prop where
  alphanumeric : ∀ key ∈ parameters.map Prod.fst, key.all isAlnum = true
  distinct : (parameters.map Prod.fst).Nodup
  unsigned : ascii "signature" ∉ parameters.map Prod.fst

theorem not_mem_of_alphanumeric {key : Bytes} (alphanumeric : key.all isAlnum = true)
    {byte : UInt8} (special : isAlnum byte = false) : byte ∉ key := by
  intro member
  rw [List.all_eq_true] at alphanumeric
  rw [alphanumeric byte member] at special
  cases special

/-- A query is read back parameter by parameter. -/
theorem parseQuery_encodedQuery {parameters : List Parameter}
    (wellKeyed : WellKeyed parameters) (nonempty : parameters ≠ []) :
    parseQuery (encodedQuery parameters) =
      some (parameters.map fun parameter => (parameter.1, parameter.2.plain)) := by
  apply parseQuery_renderQuery
  · rw [List.forall₂_map_left_iff, List.forall₂_map_right_iff, List.forall₂_same]
    intro parameter member
    have alphanumeric := wellKeyed.alphanumeric parameter.1 (List.mem_map_of_mem member)
    exact
      { key_plain := ⟨not_mem_of_alphanumeric alphanumeric (by decide),
          not_mem_of_alphanumeric alphanumeric (by decide)⟩
        value_plain := parameter.2.ampersand_not_mem_encoded
        key_decodes :=
          percentDecode_of_plain (not_mem_of_alphanumeric alphanumeric (by decide))
        value_decodes := parameter.2.percentDecode_encoded }
  · simpa using nonempty

/-- A request target made of an endpoint, a payload that decodes to the
parameters, and the signature of that payload. -/
structure SignedTarget (hmac : Bytes → Int32 → Bytes → Option Bytes)
    (secretKey endpoint target : Bytes) (parameters : List Parameter)
    (payload signature : Bytes) : Prop where
  splits : ∃ query, splitFirst '?'.toUInt8 target = some (endpoint, query) ∧
    splitLast (ascii "&signature=") query = some (payload, signature)
  signed : ∃ digest, hmac secretKey (Int32.ofNat secretKey.length) payload = some digest ∧
    signature = upperHex digest
  decodes : parseQuery payload =
    some (parameters.map fun parameter => (parameter.1, parameter.2.plain))
  denotes : ∀ parameter ∈ parameters, parameter.2.Denotes parameter.2.plain
  wellKeyed : WellKeyed parameters

theorem createSignature_ne_nil {hmac : Bytes → Int32 → Bytes → Option Bytes}
    {payload secretKey : Bytes} (nonempty : createSignature hmac payload secretKey ≠ []) :
    ∃ digest, hmac secretKey (Int32.ofNat secretKey.length) payload = some digest ∧
      createSignature hmac payload secretKey = upperHex digest := by
  unfold createSignature at nonempty ⊢
  cases computed : hmac secretKey (Int32.ofNat secretKey.length) payload with
  | none =>
      rw [computed] at nonempty
      exact absurd rfl nonempty
  | some digest => exact ⟨digest, rfl, toHex_eq_upperHex digest⟩

/-- Appending the signature of a well-keyed query to an endpoint gives a
signed target. -/
theorem signedTarget_of_query {hmac : Bytes → Int32 → Bytes → Option Bytes}
    {secretKey endpoint : Bytes} {parameters : List Parameter}
    (wellKeyed : WellKeyed parameters) (nonempty : parameters ≠ [])
    (plainEndpoint : '?'.toUInt8 ∉ endpoint)
    (signed : createSignature hmac (encodedQuery parameters) secretKey ≠ []) :
    SignedTarget hmac secretKey endpoint
      (endpoint ++ ascii "?" ++ encodedQuery parameters ++ ascii "&signature=" ++
        createSignature hmac (encodedQuery parameters) secretKey)
      parameters (encodedQuery parameters)
      (createSignature hmac (encodedQuery parameters) secretKey) := by
  obtain ⟨digest, computed, signatureEq⟩ := createSignature_ne_nil signed
  refine ⟨⟨encodedQuery parameters ++ ascii "&signature=" ++
      createSignature hmac (encodedQuery parameters) secretKey, ?_, ?_⟩,
    ⟨digest, computed, signatureEq⟩, parseQuery_encodedQuery wellKeyed nonempty,
    fun parameter _ => parameter.2.plain_denotes, wellKeyed⟩
  · have mark : ascii "?" = ['?'.toUInt8] := rfl
    rw [mark]
    simp only [List.append_assoc, List.singleton_append]
    exact splitFirst_append plainEndpoint _
  · rw [signatureEq]
    exact splitLast_append _ (by decide) (ampersand_not_mem_upperHex digest)

namespace BinanceSpotClient

def windowParameters (client : Client) (timestamp : UInt64) : List Parameter :=
  [(ascii "recvWindow", .number client.recvWindow), (ascii "timestamp", .number timestamp)]

def orderParameters (client : Client) (request : OrderRequest) (clientOrderId : UInt64) :
    List Parameter :=
  [(ascii "symbol", .text client.symbol), (ascii "side", .text request.side.toText),
    (ascii "type", .text request.type.toText),
    (ascii "quantity", .decimal request.quantity.raw),
    (ascii "newClientOrderId", .number clientOrderId)] ++
  if request.type = .limit then
    [(ascii "price", .decimal request.price.raw), (ascii "timeInForce", .text (ascii "GTC"))]
  else []

def cancelParameters (client : Client) (exchangeOrderId : UInt64) : List Parameter :=
  [(ascii "symbol", .text client.symbol), (ascii "orderId", .number exchangeOrderId)]

/-- The separators around a key in the literals of the format strings. -/
def firstKey (key : String) : Bytes :=
  ascii key ++ [equalsByte]

def nextKey (key : String) : Bytes :=
  ampersandByte :: (ascii key ++ [equalsByte])

theorem createOrderQuery_eq (client : Client) (request : OrderRequest)
    (clientOrderId : UInt64) :
    createOrderQuery request clientOrderId client.symbol =
      encodedQuery (orderParameters client request clientOrderId) := by
  have sideText : urlEncode request.side.toText = request.side.toText := by
    apply urlEncode_of_unreserved
    cases request.side <;> rfl
  have typeText : urlEncode request.type.toText = request.type.toText := by
    apply urlEncode_of_unreserved
    cases request.type <;> rfl
  have symbolKey : ascii "symbol=" = firstKey "symbol" := rfl
  have sideKey : ascii "&side=" = nextKey "side" := rfl
  have typeKey : ascii "&type=" = nextKey "type" := rfl
  have quantityKey : ascii "&quantity=" = nextKey "quantity" := rfl
  have idKey : ascii "&newClientOrderId=" = nextKey "newClientOrderId" := rfl
  have priceKey : ascii "&price=" = nextKey "price" := rfl
  have forceKey : ascii "&timeInForce=GTC" =
      nextKey "timeInForce" ++ urlEncode (ascii "GTC") := by decide
  unfold createOrderQuery orderParameters encodedQuery
  rw [symbolKey, sideKey, typeKey, quantityKey, idKey, priceKey, forceKey]
  by_cases limit : request.type = .limit
  · rw [if_pos limit, if_pos limit]
    simp [ParameterValue.encoded, sideText, typeText, renderQuery, renderPair,
      List.intercalate, firstKey, nextKey]
  · rw [if_neg limit, if_neg limit]
    simp [ParameterValue.encoded, sideText, typeText, renderQuery, renderPair,
      List.intercalate, firstKey, nextKey]

example :
    createOrderQuery
        { instrument := 1, side := .buy, type := .limit, price := ⟨6543210000000⟩
          quantity := ⟨150000⟩ } 42 (ascii "BTC/USDT&") =
      ascii ("symbol=BTC%2FUSDT%26&side=BUY&type=LIMIT&quantity=0.0015" ++
        "&newClientOrderId=42&price=65432.1&timeInForce=GTC") := by
  decide

theorem cancelQuery_eq (client : Client) (exchangeOrderId : UInt64) :
    ascii "symbol=" ++ urlEncode client.symbol ++ ascii "&orderId=" ++
        decimalBytes exchangeOrderId.toNat =
      encodedQuery (cancelParameters client exchangeOrderId) := by
  have symbolKey : ascii "symbol=" = firstKey "symbol" := rfl
  have idKey : ascii "&orderId=" = nextKey "orderId" := rfl
  rw [symbolKey, idKey]
  simp [encodedQuery, cancelParameters, ParameterValue.encoded, renderQuery, renderPair,
    List.intercalate, firstKey, nextKey]

theorem signedQuery_nil (client : Client) (timestamp : UInt64) :
    signedQuery client timestamp [] = encodedQuery (windowParameters client timestamp) := by
  have windowKey : ascii "recvWindow=" = firstKey "recvWindow" := rfl
  have timestampKey : ascii "&timestamp=" = nextKey "timestamp" := rfl
  rw [signedQuery, windowKey, timestampKey]
  simp [encodedQuery, windowParameters, ParameterValue.encoded, renderQuery, renderPair,
    List.intercalate, firstKey, nextKey]

theorem signedQuery_encodedQuery (client : Client) (timestamp : UInt64)
    {parameters : List Parameter} (nonempty : parameters ≠ []) :
    signedQuery client timestamp (encodedQuery parameters) =
      encodedQuery (parameters ++ windowParameters client timestamp) := by
  have separator : ascii "&" = [ampersandByte] := rfl
  have window : windowParameters client timestamp ≠ [] := List.cons_ne_nil _ _
  rw [encodedQuery_append nonempty window, ← signedQuery_nil, signedQuery,
    if_pos (encodedQuery_ne_nil nonempty), signedQuery, if_neg (by simp), separator]
  simp only [List.append_assoc, List.nil_append, List.cons_append]

section Requests

variable {hmac : Bytes → Int32 → Bytes → Option Bytes}
variable {simdjson : Simdjson.Library}
variable {Output : Type} {client : Client} {timestamp : UInt64}

/-- A request handed over with a query of well-keyed parameters has a signed
target. -/
theorem asyncSignedRequest_signed {method : Verb} {endpoint query : Bytes}
    {handler : Handler ApiResponse Output} {handed : HttpRequest × (Response → List Output)}
    {parameters : List Parameter}
    (member : handed ∈
      (asyncSignedRequest hmac client timestamp method endpoint query handler).requests)
    (queryEq : signedQuery client timestamp query = encodedQuery parameters)
    (wellKeyed : WellKeyed parameters) (nonempty : parameters ≠ [])
    (plainEndpoint : '?'.toUInt8 ∉ endpoint) :
    ∃ payload signature,
      SignedTarget hmac client.credentials.secretKey endpoint handed.1.target parameters
        payload signature := by
  cases handler with
  | none => cases member
  | some handler =>
      by_cases anonymous : client.credentials.apiKey = [] ∨ client.credentials.secretKey = []
      · simp only [asyncSignedRequest, if_pos anonymous] at member
        cases member
      · by_cases unsigned : createSignature hmac (encodedQuery parameters)
            client.credentials.secretKey = []
        · simp only [asyncSignedRequest, if_neg anonymous, queryEq, if_pos unsigned]
            at member
          cases member
        · simp only [asyncSignedRequest, if_neg anonymous, queryEq, if_neg unsigned,
            asyncRequest, List.mem_singleton] at member
          rw [member]
          exact ⟨_, _, signedTarget_of_query wellKeyed nonempty plainEndpoint unsigned⟩

theorem wellKeyed_of_keys {parameters : List Parameter} (keys : List String)
    (keysEq : parameters.map Prod.fst = keys.map ascii)
    (alphanumeric : (keys.map ascii).all (fun key => key.all isAlnum) = true)
    (distinct : (keys.map ascii).Nodup) (unsigned : ascii "signature" ∉ keys.map ascii) :
    WellKeyed parameters := by
  rw [← keysEq] at alphanumeric distinct unsigned
  exact ⟨List.all_eq_true.mp alphanumeric, distinct, unsigned⟩

theorem orderParameters_wellKeyed (request : OrderRequest) (clientOrderId : UInt64) :
    WellKeyed (orderParameters client request clientOrderId ++
      windowParameters client timestamp) := by
  unfold orderParameters
  by_cases limit : request.type = .limit
  · rw [if_pos limit]
    exact wellKeyed_of_keys ["symbol", "side", "type", "quantity", "newClientOrderId",
      "price", "timeInForce", "recvWindow", "timestamp"] rfl
      (by decide) (by decide) (by decide)
  · rw [if_neg limit]
    exact wellKeyed_of_keys ["symbol", "side", "type", "quantity", "newClientOrderId",
      "recvWindow", "timestamp"] rfl (by decide) (by decide) (by decide)

/-- An order is handed over with the parameters of its arguments. -/
theorem sendOrder_signed {request : OrderRequest} {clientOrderId : UInt64}
    {handler : Handler OrderResponse Output}
    {handed : HttpRequest × (Response → List Output)}
    (member : handed ∈
      (sendOrder hmac simdjson client timestamp request clientOrderId handler).requests) :
    (request.side.toText ≠ [] ∧ request.type.toText ≠ []) ∧
    ∃ payload signature,
      SignedTarget hmac client.credentials.secretKey orderEndpoint handed.1.target
        (orderParameters client request clientOrderId ++ windowParameters client timestamp)
        payload signature := by
  cases handler with
  | none => cases member
  | some handler =>
      simp only [sendOrder] at member
      split at member
      · cases member
      · next valid =>
          simp only [not_or] at valid
          split at member
          · cases member
          · rw [createOrderQuery_eq client] at member
            have nonempty : orderParameters client request clientOrderId ≠ [] :=
              List.cons_ne_nil _ _
            exact ⟨⟨valid.2.2.1, valid.2.2.2.1⟩, asyncSignedRequest_signed member
              (signedQuery_encodedQuery client timestamp nonempty)
              (orderParameters_wellKeyed request clientOrderId)
              (List.append_ne_nil_of_left_ne_nil nonempty _) (by decide)⟩

theorem cancelOrder_signed {exchangeOrderId : UInt64}
    {handler : Handler CancelResponse Output}
    {handed : HttpRequest × (Response → List Output)}
    (member : handed ∈
      (cancelOrder hmac simdjson client timestamp exchangeOrderId handler).requests) :
    ∃ payload signature,
      SignedTarget hmac client.credentials.secretKey orderEndpoint handed.1.target
        (cancelParameters client exchangeOrderId ++ windowParameters client timestamp)
        payload signature := by
  cases handler with
  | none => cases member
  | some handler =>
      simp only [cancelOrder] at member
      split at member
      · cases member
      · rw [cancelQuery_eq] at member
        have nonempty : cancelParameters client exchangeOrderId ≠ [] := List.cons_ne_nil _ _
        have wellKeyed : WellKeyed (cancelParameters client exchangeOrderId ++
            windowParameters client timestamp) :=
          wellKeyed_of_keys ["symbol", "orderId", "recvWindow", "timestamp"] rfl
            (by decide) (by decide) (by decide)
        exact asyncSignedRequest_signed member
          (signedQuery_encodedQuery client timestamp nonempty) wellKeyed
          (List.append_ne_nil_of_left_ne_nil nonempty _) (by decide)

theorem getBalances_signed {handler : Handler BalancesResponse Output}
    {handed : HttpRequest × (Response → List Output)}
    (member : handed ∈ (getBalances hmac simdjson client timestamp handler).requests) :
    ∃ payload signature,
      SignedTarget hmac client.credentials.secretKey accountEndpoint handed.1.target
        (windowParameters client timestamp) payload signature := by
  cases handler with
  | none => cases member
  | some handler =>
      have wellKeyed : WellKeyed (windowParameters client timestamp) :=
        wellKeyed_of_keys ["recvWindow", "timestamp"] rfl
          (by decide) (by decide) (by decide)
      exact asyncSignedRequest_signed member (signedQuery_nil client timestamp) wellKeyed
        (List.cons_ne_nil _ _) (by decide)

end Requests

theorem decimalBytes_injective {first second : UInt64}
    (same : decimalBytes first.toNat = decimalBytes second.toNat) : first = second := by
  have digits : decimalDigits first.toNat = decimalDigits second.toNat :=
    List.map_injective_iff.mpr digitByte_injective same
  have values := congrArg digitsValue digits
  rw [digitsValue_decimalDigits, digitsValue_decimalDigits] at values
  exact UInt64.toNat_inj.mp values

theorem toDecimalString_injective {first second : Int64}
    (same : toDecimalString first decimalPlaces = toDecimalString second decimalPlaces) :
    first = second := by
  have decoded := parseDecimal_toDecimalString first
  rw [← decimalPlaces, same, decimalPlaces, parseDecimal_toDecimalString] at decoded
  exact (Except.ok.inj decoded).symm

theorem side_eq_of_toText {first second : Side} (declared : first.toText ≠ [])
    (same : first.toText = second.toText) : first = second := by
  revert declared same
  cases first <;> cases second <;> simp [Side.toText, ascii]

theorem type_eq_of_toText {first second : OrderType} (declared : first.toText ≠ [])
    (same : first.toText = second.toText) : first = second := by
  revert declared same
  cases first <;> cases second <;> simp [OrderType.toText, ascii]

/-- The fields of two orders that are transmitted agree. -/
structure SameTransmission (client other : Client) (timestamp otherTimestamp : UInt64)
    (request otherRequest : OrderRequest) (clientOrderId otherOrderId : UInt64) : Prop where
  symbol : client.symbol = other.symbol
  side : request.side = otherRequest.side
  type : request.type = otherRequest.type
  quantity : request.quantity = otherRequest.quantity
  price : request.type = .limit → request.price = otherRequest.price
  clientOrderId : clientOrderId = otherOrderId
  recvWindow : client.recvWindow = other.recvWindow
  timestamp : timestamp = otherTimestamp

theorem sameTransmission_of_plain {client other : Client}
    {timestamp otherTimestamp : UInt64} {request otherRequest : OrderRequest}
    {clientOrderId otherOrderId : UInt64} (sideDeclared : request.side.toText ≠ [])
    (typeDeclared : request.type.toText ≠ [])
    (same : (orderParameters client request clientOrderId ++
        windowParameters client timestamp).map (fun parameter =>
          (parameter.1, parameter.2.plain)) =
      (orderParameters other otherRequest otherOrderId ++
        windowParameters other otherTimestamp).map fun parameter =>
          (parameter.1, parameter.2.plain)) :
    SameTransmission client other timestamp otherTimestamp request otherRequest
      clientOrderId otherOrderId := by
  have typeText : request.type.toText = otherRequest.type.toText := by
    have third := congrArg (fun pairs => pairs[2]?) same
    simpa [orderParameters, ParameterValue.plain] using third
  have typeEq := type_eq_of_toText typeDeclared typeText
  unfold orderParameters windowParameters at same
  rw [← typeEq] at same
  by_cases limit : request.type = .limit
  · simp only [if_pos limit, List.cons_append, List.nil_append, List.map_cons, List.map_nil,
      ParameterValue.plain, List.cons.injEq, Prod.mk.injEq, true_and, and_true] at same
    obtain ⟨symbol, sideText, quantity, orderId, price, window, sent⟩ := same
    exact
      { symbol
        side := side_eq_of_toText sideDeclared sideText
        type := typeEq
        quantity := congrArg Quantity.mk (toDecimalString_injective quantity)
        price := fun _ => congrArg Price.mk (toDecimalString_injective price)
        clientOrderId := decimalBytes_injective orderId
        recvWindow := decimalBytes_injective window
        timestamp := decimalBytes_injective sent }
  · simp only [if_neg limit, List.cons_append, List.nil_append, List.map_cons, List.map_nil,
      ParameterValue.plain, List.cons.injEq, Prod.mk.injEq, true_and, and_true,
      List.append_nil] at same
    obtain ⟨symbol, sideText, quantity, orderId, window, sent⟩ := same
    exact
      { symbol
        side := side_eq_of_toText sideDeclared sideText
        type := typeEq
        quantity := congrArg Quantity.mk (toDecimalString_injective quantity)
        price := fun isLimit => absurd isLimit limit
        clientOrderId := decimalBytes_injective orderId
        recvWindow := decimalBytes_injective window
        timestamp := decimalBytes_injective sent }

/-- The payload of a request target: between the first `?` and the last
`&signature=`. -/
def signedPayload (target : Bytes) : Option Bytes := do
  let parts ← splitFirst '?'.toUInt8 target
  let signed ← splitLast (ascii "&signature=") parts.2
  some signed.1

theorem signedPayload_eq {hmac : Bytes → Int32 → Bytes → Option Bytes}
    {secretKey endpoint target payload signature : Bytes} {parameters : List Parameter}
    (signed : SignedTarget hmac secretKey endpoint target parameters payload signature) :
    signedPayload target = some payload := by
  obtain ⟨query, first, last⟩ := signed.splits
  simp [signedPayload, first, last]

/-- Every request the client hands over has a signed target with the
parameters of its call, and orders that differ in a transmitted field have
different payloads. -/
theorem requests_signed (hmac : Bytes → Int32 → Bytes → Option Bytes)
    (simdjson : Simdjson.Library) (Output : Type) (client : Client)
    (timestamp : UInt64) :
    (∀ request clientOrderId (handler : Handler OrderResponse Output),
      ∀ handed ∈ (sendOrder hmac simdjson client timestamp request clientOrderId
        handler).requests,
      ∃ payload signature,
        SignedTarget hmac client.credentials.secretKey orderEndpoint handed.1.target
          (orderParameters client request clientOrderId ++
            windowParameters client timestamp) payload signature) ∧
    (∀ exchangeOrderId (handler : Handler CancelResponse Output),
      ∀ handed ∈ (cancelOrder hmac simdjson client timestamp exchangeOrderId
        handler).requests,
      ∃ payload signature,
        SignedTarget hmac client.credentials.secretKey orderEndpoint handed.1.target
          (cancelParameters client exchangeOrderId ++ windowParameters client timestamp)
          payload signature) ∧
    (∀ handler : Handler BalancesResponse Output,
      ∀ handed ∈ (getBalances hmac simdjson client timestamp handler).requests,
      ∃ payload signature,
        SignedTarget hmac client.credentials.secretKey accountEndpoint handed.1.target
          (windowParameters client timestamp) payload signature) ∧
    (∀ other otherTimestamp request clientOrderId otherRequest otherOrderId
        (handler otherHandler : Handler OrderResponse Output),
      ∀ handed ∈ (sendOrder hmac simdjson client timestamp request clientOrderId
        handler).requests,
      ∀ otherHanded ∈ (sendOrder hmac simdjson other otherTimestamp otherRequest otherOrderId
        otherHandler).requests,
      signedPayload handed.1.target = signedPayload otherHanded.1.target →
        SameTransmission client other timestamp otherTimestamp request otherRequest
          clientOrderId otherOrderId) := by
  refine ⟨?_, ?_, ?_, ?_⟩
  · intro request clientOrderId handler handed member
    exact (sendOrder_signed member).2
  · intro exchangeOrderId handler handed member
    exact cancelOrder_signed member
  · intro handler handed member
    exact getBalances_signed member
  · intro other otherTimestamp request clientOrderId otherRequest otherOrderId handler
      otherHandler handed member otherHanded otherMember samePayload
    obtain ⟨⟨sideDeclared, typeDeclared⟩, payload, signature, signed⟩ :=
      sendOrder_signed member
    obtain ⟨-, otherPayload, otherSignature, otherSigned⟩ := sendOrder_signed otherMember
    rw [signedPayload_eq signed, signedPayload_eq otherSigned, Option.some_inj]
      at samePayload
    have decoded := signed.decodes
    rw [samePayload, otherSigned.decodes, Option.some_inj] at decoded
    exact sameTransmission_of_plain sideDeclared typeDeclared decoded.symm

/-- A limit order for one coin is handed over once, with this payload and its
signature. -/
theorem requests_signed_limit :
    let hmac : Bytes → Int32 → Bytes → Option Bytes := fun _ _ _ => some [0x2A]
    let client : Client := { credentials := ⟨ascii "key", ascii "secret"⟩ }
    let request : OrderRequest :=
      { instrument := 1, price := ⟨150000000⟩, quantity := ⟨100000000⟩ }
    let payload := ascii
      ("symbol=BTCUSDT&side=BUY&type=LIMIT&quantity=1&newClientOrderId=7&price=1.5" ++
        "&timeInForce=GTC&recvWindow=5000&timestamp=1700000000000")
    ∃ handed, (sendOrder hmac .unreadable client 1700000000000 request 7
        (some fun _ => [()])).requests = [handed] ∧
      SignedTarget hmac (ascii "secret") orderEndpoint handed.1.target
        (orderParameters client request 7 ++ windowParameters client 1700000000000)
        payload (ascii "2A") := by
  intro hmac client request payload
  let effects := sendOrder hmac .unreadable client 1700000000000 request 7
    (some fun _ => [()])
  have payloads : effects.requests.map (fun handed => signedPayload handed.1.target) =
      [some payload] := by
    decide +kernel
  obtain ⟨handed, requestsEq, payloadEq⟩ := List.map_eq_singleton_iff.mp payloads
  obtain ⟨sent, signature, signed⟩ := (requests_signed hmac .unreadable Unit
    client 1700000000000).1 request 7 (some fun _ => [()]) handed
    (by rw [requestsEq]; exact List.mem_singleton_self handed)
  rw [signedPayload_eq signed, Option.some_inj] at payloadEq
  obtain ⟨digest, digestEq, signatureEq⟩ := signed.signed
  have isSigned : signature = ascii "2A" := by
    rw [signatureEq, ← Option.some_inj.mp digestEq]
    decide
  rw [payloadEq, isSigned] at signed
  exact ⟨handed, requestsEq, signed⟩

end BinanceSpotClient

end ExchangeConnectivity
