import ExchangeConnectivity.DecimalStrings
import ExchangeConnectivity.Orders
import ExchangeConnectivity.RestSession

/-!
# The spot client

`binance_spot_client/binance_spot_client.cpp` and `utilities.cpp`: orders,
cancellations and balance queries are checked, signed and handed to the REST
client, and the responses are read through `simdjson`.
-/

namespace ExchangeConnectivity

open ByteStrings DecimalNumerals

namespace Utilities

def hexDigits : Bytes := ascii "0123456789ABCDEF"

/-- `std::isalnum` in the C locale. -/
def isAlnum (character : UInt8) : Bool :=
  (48 ≤ character.toNat && character.toNat ≤ 57) ||
    (65 ≤ character.toNat && character.toNat ≤ 90) ||
    (97 ≤ character.toNat && character.toNat ≤ 122)

/-- The two hexadecimal digits `push_back` appends. -/
def hexCharacters (character : UInt8) : Bytes :=
  [hexDigits.getD (character.toNat >>> 4) 0, hexDigits.getD (character.toNat &&& 0x0F) 0]

def isUnreserved (character : UInt8) : Bool :=
  isAlnum character || character == '-'.toUInt8 || character == '_'.toUInt8 ||
    character == '.'.toUInt8 || character == '~'.toUInt8

def urlEncode (value : Bytes) : Bytes :=
  value.flatMap fun character =>
    if isUnreserved character then [character]
    else '%'.toUInt8 :: hexCharacters character

def toHex (data : Bytes) : Bytes :=
  data.flatMap hexCharacters

end Utilities

open Utilities

/-- `createSignature`, the same in the spot client and the gateway.  OpenSSL's
`HMAC` with SHA-256 is a parameter: it takes the key, its length as an `int`
and the payload, and may fail. -/
def createSignature (hmac : Bytes → Int32 → Bytes → Option Bytes)
    (payload secretKey : Bytes) : Bytes :=
  match hmac secretKey (Int32.ofNat secretKey.length) payload with
  | none => []
  | some digest => toHex digest

structure ApiCredentials where
  apiKey : Bytes
  secretKey : Bytes

namespace BinanceSpotClient

inductive BinanceApiErrorCode
  | invalidRequest
  | signingFailed
  | transportError
  | exchangeRejected
  | invalidResponse
  deriving DecidableEq

structure BinanceApiError where
  code : BinanceApiErrorCode := .invalidResponse
  exchangeErrorCode : Int64 := 0
  message : Bytes
  deriving DecidableEq

structure OrderCancellation where
  exchangeOrderId : UInt64
  status : OrderStatus
  deriving DecidableEq

structure AssetBalance where
  asset : Bytes
  free : Bytes
  locked : Bytes
  deriving DecidableEq

abbrev OrderResponse := Except BinanceApiError OrderSubmission
abbrev CancelResponse := Except BinanceApiError OrderCancellation
abbrev BalancesResponse := Except BinanceApiError (List AssetBalance)
abbrev ApiResponse := Except BinanceApiError HttpResponse

/-- The fields of a `BinanceSpotClient`, with the defaults of its constructor. -/
structure Client where
  credentials : ApiCredentials
  host : Bytes := ascii "testnet.binance.vision"
  port : UInt16 := 443
  symbol : Bytes := ascii "BTCUSDT"
  recvWindow : UInt64 := 5000

def orderEndpoint : Bytes := ascii "/api/v3/order"

def accountEndpoint : Bytes := ascii "/api/v3/account"

def makeError (code : BinanceApiErrorCode) (message : Bytes)
    (exchangeErrorCode : Int64 := 0) : BinanceApiError :=
  { code, exchangeErrorCode, message }

section Responses

variable (simdjson : Simdjson.Library)

/-- An accessor reports success and leaves its output alone on failure. -/
def getJsonString (json : Json) (key : String) (output : Bytes) : Bool × Bytes :=
  match simdjson.field json key >>= simdjson.getString with
  | .ok value => (true, value)
  | .error _ => (false, output)

def getJsonUint64 (json : Json) (key : String) (output : UInt64) : Bool × UInt64 :=
  match simdjson.field json key >>= simdjson.getUint64 with
  | .ok value => (true, value)
  | .error _ =>
      match simdjson.field json key >>= simdjson.getInt64 with
      | .ok signedValue =>
          if signedValue ≥ 0 then (true, signedValue.toUInt64) else (false, output)
      | .error _ => (false, output)

def getJsonInt64 (json : Json) (key : String) (output : Int64) : Bool × Int64 :=
  match simdjson.field json key >>= simdjson.getInt64 with
  | .ok value => (true, value)
  | .error _ => (false, output)

/-- The beginning the three response parsers share: the body must be a JSON
object, and a status outside 200 to 299 is a rejection. -/
def acceptedObject (response : HttpResponse) (invalid rejected : Bytes) :
    Except BinanceApiError Json :=
  match simdjson.parse response.body with
  | .error _ => .error (makeError .invalidResponse invalid)
  | .ok json =>
      if ¬ simdjson.isObject json then .error (makeError .invalidResponse invalid)
      else if response.status < 200 ∨ response.status ≥ 300 then
        let exchangeErrorCode := (getJsonInt64 simdjson json "code" 0).2
        let message := (getJsonString simdjson json "msg" []).2
        .error (makeError .exchangeRejected
          (if message = [] then rejected else message) exchangeErrorCode)
      else .ok json

/-- The order id and the status of an order or cancel response. -/
def orderIdAndStatus (json : Json) (missing : Bytes) :
    Except BinanceApiError (UInt64 × Bytes) :=
  let (hasOrderId, exchangeOrderId) := getJsonUint64 simdjson json "orderId" 0
  let (hasStatus, status) := getJsonString simdjson json "status" []
  if ¬ hasOrderId ∨ ¬ hasStatus ∨ exchangeOrderId = 0 then
    .error (makeError .invalidResponse missing)
  else .ok (exchangeOrderId, status)

def parseOrderResponse (response : HttpResponse) (clientOrderId : UInt64) :
    OrderResponse := do
  let json ← acceptedObject simdjson response (ascii "Invalid Binance order response")
    (ascii "Binance rejected order")
  let (exchangeOrderId, status) ← orderIdAndStatus simdjson json
    (ascii "Binance response does not contain orderId or status")
  pure { clientOrderId, exchangeOrderId, status := toOrderStatus status }

/-- The conversion of `toOrderStatus(status)` to an `optional`, which always
holds a value. -/
def optionalOrderStatus (status : Bytes) : Option OrderStatus :=
  some (toOrderStatus status)

def parseCancelResponse (response : HttpResponse) : CancelResponse := do
  let json ← acceptedObject simdjson response (ascii "Invalid Binance cancel response")
    (ascii "Binance rejected cancellation")
  let (exchangeOrderId, status) ← orderIdAndStatus simdjson json
    (ascii "Binance cancel response does not contain orderId or status")
  match optionalOrderStatus status with
  | none =>
      .error (makeError .invalidResponse
        (ascii "Unknown Binance order status: " ++ status))
  | some orderStatus => pure { exchangeOrderId, status := orderStatus }

def parseBalance (balance : Json) : Except BinanceApiError AssetBalance :=
  let (hasAsset, asset) := getJsonString simdjson balance "asset" []
  let (hasFree, free) := getJsonString simdjson balance "free" []
  let (hasLocked, locked) := getJsonString simdjson balance "locked" []
  if ¬ hasAsset ∨ ¬ hasFree ∨ ¬ hasLocked then
    .error (makeError .invalidResponse
      (ascii "Invalid balance entry in Binance response"))
  else .ok { asset, free, locked }

def parseBalancesResponse (response : HttpResponse) : BalancesResponse := do
  let json ← acceptedObject simdjson response (ascii "Invalid Binance account response")
    (ascii "Binance rejected account request")
  match simdjson.field json "balances" >>= simdjson.getArray with
  | .error _ =>
      .error (makeError .invalidResponse
        (ascii "Binance account response does not contain balances"))
  | .ok balances => balances.mapM (parseBalance simdjson)

end Responses

def createOrderQuery (request : OrderRequest) (clientOrderId : UInt64)
    (symbol : Bytes) : Bytes :=
  let query :=
    ascii "symbol=" ++ urlEncode symbol ++
    ascii "&side=" ++ request.side.toText ++
    ascii "&type=" ++ request.type.toText ++
    ascii "&quantity=" ++ toDecimalString request.quantity.raw decimalPlaces ++
    ascii "&newClientOrderId=" ++ decimalBytes clientOrderId.toNat
  if request.type = .limit then
    query ++ ascii "&price=" ++ toDecimalString request.price.raw decimalPlaces ++
      ascii "&timeInForce=GTC"
  else query

/-- The query `asyncSignedRequest` signs: its own parameters come last. -/
def signedQuery (client : Client) (timestamp : UInt64) (query : Bytes) : Bytes :=
  (if query ≠ [] then query ++ ascii "&" else query) ++
    ascii "recvWindow=" ++ decimalBytes client.recvWindow.toNat ++
    ascii "&timestamp=" ++ decimalBytes timestamp.toNat

section Calls

variable (hmac : Bytes → Int32 → Bytes → Option Bytes)
variable (simdjson : Simdjson.Library)
variable {Output : Type} (client : Client)

/-- `timestamp` is the value `unixTimestampMilliseconds()` returns during the
call. -/
def asyncSignedRequest (timestamp : UInt64) (method : Verb) (endpoint query : Bytes)
    (handler : Handler ApiResponse Output) : Effects Output :=
  match handler with
  | none => .none
  | some handler =>
      if client.credentials.apiKey = [] ∨ client.credentials.secretKey = [] then
        { outputs := handler (.error
            (makeError .signingFailed (ascii "Binance API credentials are empty"))) }
      else
        let query := signedQuery client timestamp query
        let signature := createSignature hmac query client.credentials.secretKey
        if signature = [] then
          { outputs := handler (.error
              (makeError .signingFailed
                (ascii "Failed to create HMAC SHA256 signature"))) }
        else
          asyncRequest
            { host := client.host
              port := decimalBytes client.port.toNat
              target := endpoint ++ ascii "?" ++ query ++ ascii "&signature=" ++ signature
              method
              headers := [(ascii "X-MBX-APIKEY", client.credentials.apiKey)] }
            fun response =>
              match response with
              | .error failure =>
                  handler (.error (makeError .transportError failure.message))
              | .ok response => handler (.ok response)

/-- The closures given to `asyncSignedRequest`: an error is passed on, and a
response is read first. -/
def readingHandler {Result : Type} (read : HttpResponse → Except BinanceApiError Result)
    (handler : Except BinanceApiError Result → List Output) :
    Handler ApiResponse Output :=
  some fun response =>
    match response with
    | .error error => handler (.error error)
    | .ok response => handler (read response)

def sendOrder (timestamp : UInt64) (request : OrderRequest) (clientOrderId : UInt64)
    (handler : Handler OrderResponse Output) : Effects Output :=
  match handler with
  | none => .none
  | some handler =>
      if clientOrderId = 0 ∨ request.quantity.raw ≤ 0 ∨ request.side.toText = [] ∨
          request.type.toText = [] ∨ (request.type = .limit ∧ request.price.raw ≤ 0) then
        { outputs := handler (.error
            (makeError .invalidRequest (ascii "Invalid order parameters"))) }
      else if client.symbol = [] then
        { outputs := handler (.error
            (makeError .invalidRequest (ascii "Instrument symbol is empty"))) }
      else
        asyncSignedRequest hmac client timestamp .post orderEndpoint
          (createOrderQuery request clientOrderId client.symbol)
          (readingHandler (parseOrderResponse simdjson · clientOrderId) handler)

def cancelOrder (timestamp : UInt64) (exchangeOrderId : UInt64)
    (handler : Handler CancelResponse Output) : Effects Output :=
  match handler with
  | none => .none
  | some handler =>
      if exchangeOrderId = 0 then
        { outputs := handler (.error
            (makeError .invalidRequest (ascii "Invalid exchange order ID"))) }
      else
        asyncSignedRequest hmac client timestamp .delete orderEndpoint
          (ascii "symbol=" ++ urlEncode client.symbol ++
            ascii "&orderId=" ++ decimalBytes exchangeOrderId.toNat)
          (readingHandler (parseCancelResponse simdjson) handler)

def getBalances (timestamp : UInt64) (handler : Handler BalancesResponse Output) :
    Effects Output :=
  match handler with
  | none => .none
  | some handler =>
      asyncSignedRequest hmac client timestamp .get accountEndpoint []
        (readingHandler (parseBalancesResponse simdjson) handler)

end Calls

end BinanceSpotClient

end ExchangeConnectivity
