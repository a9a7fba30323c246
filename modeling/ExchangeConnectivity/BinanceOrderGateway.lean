import ExchangeConnectivity.BinanceSpotClient

/-!
# The order gateway

`binance_order_client/binance_order_gateway.cpp`, which submits orders only.
It was made from the same code as the spot client, but checks its arguments in
another order and reads JSON with default values instead of success flags.
-/

namespace ExchangeConnectivity

open ByteStrings DecimalNumerals Utilities

namespace BinanceOrderGateway

inductive OrderSubmissionErrorCode
  | invalidInstrument
  | invalidOrder
  | signingFailed
  | transportError
  | exchangeRejected
  | invalidResponse
  deriving DecidableEq

structure OrderSubmissionError where
  code : OrderSubmissionErrorCode := .invalidOrder
  exchangeErrorCode : Int64 := 0
  message : Bytes
  deriving DecidableEq

/-- `BinanceOrderGateway::Response`. -/
abbrev SubmissionResponse := Except OrderSubmissionError OrderSubmission

/-- The fields of a `BinanceOrderGateway`, with the defaults of its
constructor. -/
structure Gateway where
  credentials : ApiCredentials
  host : Bytes := ascii "testnet.binance.vision"
  port : UInt16 := 443
  orderEndpoint : Bytes := ascii "/api/v3/order"
  symbol : Bytes := ascii "BTCUSDT"

def recvWindow : UInt64 := 5000

def makeError (code : OrderSubmissionErrorCode) (message : Bytes)
    (exchangeErrorCode : Int64 := 0) : OrderSubmissionError :=
  { code, exchangeErrorCode, message }

section Responses

variable (simdjson : Simdjson.Library)

def getJsonString (json : Json) (key : String) : Bytes :=
  match simdjson.field json key >>= simdjson.getString with
  | .ok value => value
  | .error _ => []

def getJsonUint64 (json : Json) (key : String) : UInt64 :=
  match simdjson.field json key >>= simdjson.getUint64 with
  | .ok value => value
  | .error _ =>
      match simdjson.field json key >>= simdjson.getInt64 with
      | .ok signedValue => if signedValue ≥ 0 then signedValue.toUInt64 else 0
      | .error _ => 0

def getJsonInt64 (json : Json) (key : String) : Int64 :=
  match simdjson.field json key >>= simdjson.getInt64 with
  | .ok value => value
  | .error _ => 0

/-- `errorMessage` is `simdjson::error_message`. -/
def parseResponse (errorMessage : Simdjson.Error → Bytes) (response : HttpResponse)
    (clientOrderId : UInt64) : SubmissionResponse :=
  match simdjson.parse response.body with
  | .error errorCode =>
      .error (makeError .invalidResponse
        (ascii "Invalid Binance JSON response: " ++ errorMessage errorCode))
  | .ok json =>
      if ¬ simdjson.isObject json then
        .error (makeError .invalidResponse
          (ascii "Binance response is not a JSON object"))
      else if response.status < 200 ∨ response.status ≥ 300 then
        let exchangeErrorCode := getJsonInt64 simdjson json "code"
        let message := getJsonString simdjson json "msg"
        .error (makeError .exchangeRejected
          (if message = [] then ascii "Binance rejected order" else message)
          exchangeErrorCode)
      else
        let exchangeOrderId := getJsonUint64 simdjson json "orderId"
        let status := getJsonString simdjson json "status"
        if exchangeOrderId = 0 ∨ status = [] then
          .error (makeError .invalidResponse
            (ascii "Binance response does not contain orderId or status"))
        else
          .ok { clientOrderId, exchangeOrderId, status := toOrderStatus status }

end Responses

/-- `timestamp` is the value `unixTimestampMilliseconds()` returns. -/
def createQuery (timestamp : UInt64) (request : OrderRequest) (clientOrderId : UInt64)
    (symbol : Bytes) : Bytes :=
  let query :=
    ascii "symbol=" ++ urlEncode symbol ++
    ascii "&side=" ++ request.side.toText ++
    ascii "&type=" ++ request.type.toText ++
    ascii "&quantity=" ++ toDecimalString request.quantity.raw decimalPlaces ++
    ascii "&newClientOrderId=" ++ decimalBytes clientOrderId.toNat
  let query :=
    if request.type = .limit then
      query ++ ascii "&price=" ++ toDecimalString request.price.raw decimalPlaces ++
        ascii "&timeInForce=GTC"
    else query
  query ++ ascii "&recvWindow=" ++ decimalBytes recvWindow.toNat ++
    ascii "&timestamp=" ++ decimalBytes timestamp.toNat

/-- The request `sendOrder` hands over. -/
def httpRequest (gateway : Gateway) (query signature : Bytes) : HttpRequest where
  host := gateway.host
  port := decimalBytes gateway.port.toNat
  target := gateway.orderEndpoint ++ ascii "?" ++ query ++ ascii "&signature=" ++ signature
  method := .post
  headers := [(ascii "X-MBX-APIKEY", gateway.credentials.apiKey)]

section Calls

variable (hmac : Bytes → Int32 → Bytes → Option Bytes)
variable (simdjson : Simdjson.Library)
variable (errorMessage : Simdjson.Error → Bytes)
variable {Output : Type}

/-- The closure `sendOrder` gives to the REST client. -/
def onResponse (clientOrderId : UInt64) (handler : SubmissionResponse → List Output)
    (response : Response) : List Output :=
  match response with
  | .error failure => handler (.error (makeError .transportError failure.message))
  | .ok response => handler (parseResponse simdjson errorMessage response clientOrderId)

variable (gateway : Gateway)

def sendOrder (timestamp : UInt64) (request : OrderRequest) (clientOrderId : UInt64)
    (handler : Handler SubmissionResponse Output) : Effects Output :=
  match handler with
  | none => .none
  | some handler =>
      if clientOrderId = 0 ∨ request.quantity.raw ≤ 0 ∨
          (request.type = .limit ∧ request.price.raw ≤ 0) then
        { outputs := handler (.error
            (makeError .invalidOrder (ascii "Invalid order parameters"))) }
      else if gateway.credentials.apiKey = [] ∨ gateway.credentials.secretKey = [] then
        { outputs := handler (.error
            (makeError .signingFailed (ascii "Binance API credentials are empty"))) }
      else if gateway.symbol = [] then
        { outputs := handler (.error
            (makeError .invalidInstrument (ascii "Unknown instrument"))) }
      else
        let query := createQuery timestamp request clientOrderId gateway.symbol
        let signature := createSignature hmac query gateway.credentials.secretKey
        if signature = [] then
          { outputs := handler (.error
              (makeError .signingFailed
                (ascii "Failed to create HMAC SHA256 signature"))) }
        else
          asyncRequest (httpRequest gateway query signature)
            (onResponse simdjson errorMessage clientOrderId handler)

end Calls

end BinanceOrderGateway

end ExchangeConnectivity
