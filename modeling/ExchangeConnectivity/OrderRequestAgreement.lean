import ExchangeConnectivity.OrderSubmissionCallbacks

/-!
# The request of an order

The spot client and the gateway build the query of an order in different
functions and make their checks in a different order.  Both hand over at most
one request, and for declared sides and types it is the same request under the
same conditions.
-/

namespace ExchangeConnectivity

open ByteStrings DecimalNumerals

/-- A side that has an enumerator. -/
def Side.Declared (side : Side) : Prop :=
  side = .buy ∨ side = .sell

def OrderType.Declared (type : OrderType) : Prop :=
  type = .market ∨ type = .limit

theorem Side.Declared.toText_ne_nil {side : Side} (declared : side.Declared) :
    side.toText ≠ [] := by
  rcases declared with rfl | rfl <;> decide

theorem OrderType.Declared.toText_ne_nil {type : OrderType} (declared : type.Declared) :
    type.toText ≠ [] := by
  rcases declared with rfl | rfl <;> decide

/-- What the two checks of an order have in common beyond its parameters. -/
structure Signable (credentials : ApiCredentials) (symbol signature : Bytes) : Prop where
  apiKey : credentials.apiKey ≠ []
  secretKey : credentials.secretKey ≠ []
  symbol : symbol ≠ []
  signature : signature ≠ []

/-- The requests a call has handed to the REST client. -/
def Effects.transmitted {Output : Type} (effects : Effects Output) : List HttpRequest :=
  effects.requests.map Prod.fst

@[simp]
theorem Effects.transmitted_outputs {Output : Type} (outputs : List Output) :
    ({ outputs } : Effects Output).transmitted = [] :=
  rfl

namespace BinanceSpotClient

section

variable (hmac : Bytes → Int32 → Bytes → Option Bytes)
variable (simdjson : Simdjson.Library)
variable (client : Client) (timestamp : UInt64)
variable {Output : Type}

/-- The payload of an order, and its signature. -/
def orderPayload (request : OrderRequest) (clientOrderId : UInt64) : Bytes :=
  signedQuery client timestamp (createOrderQuery request clientOrderId client.symbol)

def orderSignature (request : OrderRequest) (clientOrderId : UInt64) : Bytes :=
  createSignature hmac (orderPayload client timestamp request clientOrderId)
    client.credentials.secretKey

/-- The request of an order. -/
def orderHttpRequest (request : OrderRequest) (clientOrderId : UInt64) : HttpRequest where
  host := client.host
  port := decimalBytes client.port.toNat
  target := orderEndpoint ++ ascii "?" ++
    orderPayload client timestamp request clientOrderId ++ ascii "&signature=" ++
    orderSignature hmac client timestamp request clientOrderId
  method := .post
  headers := [(ascii "X-MBX-APIKEY", client.credentials.apiKey)]

theorem sendOrder_transmitted {request : OrderRequest} {clientOrderId : UInt64}
    (handler : OrderResponse → List Output) (valid : ValidOrder request clientOrderId)
    (signable : Signable client.credentials client.symbol
      (orderSignature hmac client timestamp request clientOrderId)) :
    (sendOrder hmac simdjson client timestamp request clientOrderId (some handler)).transmitted =
      [orderHttpRequest hmac client timestamp request clientOrderId] := by
  have accepted := mt (not_validOrder_iff request clientOrderId).mpr (not_not_intro valid)
  have authenticated :
      ¬ (client.credentials.apiKey = [] ∨ client.credentials.secretKey = []) :=
    not_or.mpr ⟨signable.apiKey, signable.secretKey⟩
  have signed := signable.signature
  rw [orderSignature, orderPayload] at signed
  simp only [sendOrder, asyncSignedRequest, readingHandler, if_neg accepted,
    if_neg signable.symbol, if_neg authenticated, if_neg signed]
  rfl

theorem sendOrder_withheld {request : OrderRequest} {clientOrderId : UInt64}
    (handler : OrderResponse → List Output)
    (missing : ¬ (ValidOrder request clientOrderId ∧
      Signable client.credentials client.symbol
        (orderSignature hmac client timestamp request clientOrderId))) :
    (sendOrder hmac simdjson client timestamp request clientOrderId (some handler)).transmitted =
      [] := by
  simp only [sendOrder, asyncSignedRequest, readingHandler]
  split_ifs with invalid unnamed unauthenticated unsigned
  · exact Effects.transmitted_outputs _
  · exact Effects.transmitted_outputs _
  · exact Effects.transmitted_outputs _
  · exact Effects.transmitted_outputs _
  · rw [not_or] at unauthenticated
    have valid := not_not.mp (mt (not_validOrder_iff request clientOrderId).mp invalid)
    exact absurd ⟨valid, unauthenticated.1, unauthenticated.2, unnamed, unsigned⟩ missing

end

end BinanceSpotClient

namespace BinanceOrderGateway

section

variable (hmac : Bytes → Int32 → Bytes → Option Bytes)
variable (simdjson : Simdjson.Library)
variable (errorMessage : Simdjson.Error → Bytes)
variable (gateway : Gateway) (timestamp : UInt64)
variable {Output : Type}

def orderSignature (request : OrderRequest) (clientOrderId : UInt64) : Bytes :=
  createSignature hmac (createQuery timestamp request clientOrderId gateway.symbol)
    gateway.credentials.secretKey

theorem sendOrder_transmitted {request : OrderRequest} {clientOrderId : UInt64}
    (handler : SubmissionResponse → List Output) (valid : ValidOrder request clientOrderId)
    (signable : Signable gateway.credentials gateway.symbol
      (orderSignature hmac gateway timestamp request clientOrderId)) :
    (sendOrder hmac simdjson errorMessage gateway timestamp request clientOrderId
        (some handler)).transmitted =
      [httpRequest gateway (createQuery timestamp request clientOrderId gateway.symbol)
        (orderSignature hmac gateway timestamp request clientOrderId)] := by
  have accepted := mt (not_validOrder_iff request clientOrderId).mpr (not_not_intro valid)
  have authenticated :
      ¬ (gateway.credentials.apiKey = [] ∨ gateway.credentials.secretKey = []) :=
    not_or.mpr ⟨signable.apiKey, signable.secretKey⟩
  have signed := signable.signature
  rw [orderSignature] at signed
  simp only [sendOrder, if_neg accepted, if_neg signable.symbol, if_neg authenticated,
    if_neg signed]
  rfl

theorem sendOrder_withheld {request : OrderRequest} {clientOrderId : UInt64}
    (handler : SubmissionResponse → List Output)
    (missing : ¬ (ValidOrder request clientOrderId ∧
      Signable gateway.credentials gateway.symbol
        (orderSignature hmac gateway timestamp request clientOrderId))) :
    (sendOrder hmac simdjson errorMessage gateway timestamp request clientOrderId
      (some handler)).transmitted = [] := by
  simp only [sendOrder]
  split_ifs with invalid unauthenticated unnamed unsigned
  · exact Effects.transmitted_outputs _
  · exact Effects.transmitted_outputs _
  · exact Effects.transmitted_outputs _
  · exact Effects.transmitted_outputs _
  · rw [not_or] at unauthenticated
    have valid := not_not.mp (mt (not_validOrder_iff request clientOrderId).mp invalid)
    exact absurd ⟨valid, unauthenticated.1, unauthenticated.2, unnamed, unsigned⟩ missing

end

end BinanceOrderGateway

/-- A gateway and a spot client set up alike: the gateway's endpoint is the
spot client's, and the spot client's receive window is the gateway's. -/
structure SameSetup (client : BinanceSpotClient.Client)
    (gateway : BinanceOrderGateway.Gateway) : Prop where
  credentials : gateway.credentials = client.credentials
  host : gateway.host = client.host
  port : gateway.port = client.port
  symbol : gateway.symbol = client.symbol
  endpoint : gateway.orderEndpoint = ascii "/api/v3/order"
  window : client.recvWindow = 5000

section

variable {hmac : Bytes → Int32 → Bytes → Option Bytes}
variable {client : BinanceSpotClient.Client} {gateway : BinanceOrderGateway.Gateway}
variable {timestamp : UInt64} {request : OrderRequest} {clientOrderId : UInt64}

theorem createOrderQuery_ne_nil {symbol : Bytes} :
    BinanceSpotClient.createOrderQuery request clientOrderId symbol ≠ [] := by
  have keyed : ascii "symbol=" ≠ [] := by decide
  unfold BinanceSpotClient.createOrderQuery
  by_cases limited : request.type = .limit <;> simp [limited, keyed]

/-- The gateway appends while it builds what the spot client appends while it
signs. -/
theorem createQuery_eq_orderPayload (same : SameSetup client gateway) :
    BinanceOrderGateway.createQuery timestamp request clientOrderId gateway.symbol =
      BinanceSpotClient.orderPayload client timestamp request clientOrderId := by
  have separated : ascii "&recvWindow=" = ascii "&" ++ ascii "recvWindow=" := by decide
  have windowEq : BinanceOrderGateway.recvWindow = client.recvWindow := same.window.symm
  have queryEq : BinanceOrderGateway.createQuery timestamp request clientOrderId
        gateway.symbol =
      BinanceSpotClient.createOrderQuery request clientOrderId client.symbol ++
        ascii "&recvWindow=" ++ decimalBytes client.recvWindow.toNat ++
        ascii "&timestamp=" ++ decimalBytes timestamp.toNat := by
    rw [← windowEq, ← same.symbol]
    rfl
  rw [queryEq, separated, BinanceSpotClient.orderPayload, BinanceSpotClient.signedQuery,
    if_pos createOrderQuery_ne_nil]
  simp only [List.append_assoc]

theorem orderSignature_eq (same : SameSetup client gateway) :
    BinanceOrderGateway.orderSignature hmac gateway timestamp request clientOrderId =
      BinanceSpotClient.orderSignature hmac client timestamp request clientOrderId := by
  rw [BinanceOrderGateway.orderSignature, BinanceSpotClient.orderSignature,
    createQuery_eq_orderPayload same, same.credentials]

theorem httpRequest_eq_orderHttpRequest (same : SameSetup client gateway) :
    BinanceOrderGateway.httpRequest gateway
        (BinanceOrderGateway.createQuery timestamp request clientOrderId gateway.symbol)
        (BinanceOrderGateway.orderSignature hmac gateway timestamp request clientOrderId) =
      BinanceSpotClient.orderHttpRequest hmac client timestamp request clientOrderId := by
  rw [orderSignature_eq same, createQuery_eq_orderPayload same]
  unfold BinanceOrderGateway.httpRequest BinanceSpotClient.orderHttpRequest
  rw [same.host, same.port, same.credentials, same.endpoint]
  rfl

/-- For declared sides and types the two checks of the parameters are one. -/
theorem validOrder_iff_of_declared (side : request.side.Declared)
    (type : request.type.Declared) (clientOrderId : UInt64) :
    BinanceOrderGateway.ValidOrder request clientOrderId ↔
      BinanceSpotClient.ValidOrder request clientOrderId := by
  unfold BinanceOrderGateway.ValidOrder BinanceSpotClient.ValidOrder
  simp only [ne_eq, side.toText_ne_nil, type.toText_ne_nil, not_false_eq_true, true_and]

end

/-- With the same set-up and both called with or both without a handler, the
two clients transmit the same requests: none, or the same one. -/
theorem orderRequests_agree (hmac : Bytes → Int32 → Bytes → Option Bytes)
    (simdjson : Simdjson.Library) (errorMessage : Simdjson.Error → Bytes)
    {client : BinanceSpotClient.Client} {gateway : BinanceOrderGateway.Gateway}
    (same : SameSetup client gateway) (timestamp : UInt64) {request : OrderRequest}
    (side : request.side.Declared) (type : request.type.Declared) (clientOrderId : UInt64)
    {Output GatewayOutput : Type} (handler : Handler BinanceSpotClient.OrderResponse Output)
    (gatewayHandler : Handler BinanceOrderGateway.SubmissionResponse GatewayOutput)
    (called : handler.isSome = gatewayHandler.isSome) :
    (BinanceOrderGateway.sendOrder hmac simdjson errorMessage gateway timestamp request
        clientOrderId gatewayHandler).transmitted =
      (BinanceSpotClient.sendOrder hmac simdjson client timestamp request clientOrderId
        handler).transmitted := by
  cases handler with
  | none =>
      cases gatewayHandler with
      | none => rfl
      | some gatewayHandler => cases called
  | some handler =>
      cases gatewayHandler with
      | none => cases called
      | some gatewayHandler =>
          have signatureEq : BinanceOrderGateway.orderSignature hmac gateway timestamp request
              clientOrderId = _ := orderSignature_eq same
          have signableIff : Signable gateway.credentials gateway.symbol
                (BinanceOrderGateway.orderSignature hmac gateway timestamp request
                  clientOrderId) ↔
              Signable client.credentials client.symbol
                (BinanceSpotClient.orderSignature hmac client timestamp request
                  clientOrderId) := by
            rw [signatureEq, same.credentials, same.symbol]
          have decision :=
            and_congr (validOrder_iff_of_declared side type clientOrderId) signableIff
          by_cases transmits :
            BinanceSpotClient.ValidOrder request clientOrderId ∧
              Signable client.credentials client.symbol
                (BinanceSpotClient.orderSignature hmac client timestamp request clientOrderId)
          · have gatewayTransmits := decision.mpr transmits
            rw [BinanceSpotClient.sendOrder_transmitted hmac simdjson client timestamp handler
                transmits.1 transmits.2,
              BinanceOrderGateway.sendOrder_transmitted hmac simdjson errorMessage gateway
                timestamp gatewayHandler gatewayTransmits.1 gatewayTransmits.2,
              httpRequest_eq_orderHttpRequest same]
          · have gatewayWithheld := mt decision.mp transmits
            rw [BinanceSpotClient.sendOrder_withheld hmac simdjson client timestamp handler
                transmits,
              BinanceOrderGateway.sendOrder_withheld hmac simdjson errorMessage gateway
                timestamp gatewayHandler gatewayWithheld]

/-- A limit order for one coin, sent with default set-ups and a signature that
is one byte long. -/
theorem orderRequests_agree_limit :
    let hmac : Bytes → Int32 → Bytes → Option Bytes := fun _ _ _ => some [0x2A]
    let request : OrderRequest :=
      { instrument := 1, price := ⟨150000000⟩, quantity := ⟨100000000⟩ }
    let sent : HttpRequest :=
      { host := ascii "testnet.binance.vision"
        target := ascii
          ("/api/v3/order?symbol=BTCUSDT&side=BUY&type=LIMIT&quantity=1&newClientOrderId=7" ++
            "&price=1.5&timeInForce=GTC&recvWindow=5000&timestamp=1700000000000&signature=2A")
        method := .post
        headers := [(ascii "X-MBX-APIKEY", ascii "key")] }
    (BinanceOrderGateway.sendOrder hmac .unreadable (fun _ => [])
        { credentials := ⟨ascii "key", ascii "secret"⟩ } 1700000000000 request 7
        (some fun _ => [()])).transmitted = [sent] ∧
      (BinanceSpotClient.sendOrder hmac .unreadable
        { credentials := ⟨ascii "key", ascii "secret"⟩ } 1700000000000 request 7
        (some fun _ => [()])).transmitted = [sent] := by
  intro hmac request sent
  have sends : (BinanceSpotClient.sendOrder hmac .unreadable
      { credentials := ⟨ascii "key", ascii "secret"⟩ } 1700000000000 request 7
      (some fun _ => [()])).transmitted = [sent] := by
    decide +kernel
  refine ⟨?_, sends⟩
  rw [← sends]
  exact orderRequests_agree _ _ _ ⟨rfl, rfl, rfl, rfl, rfl, rfl⟩ _ (.inl rfl) (.inr rfl) _ _ _ rfl

end ExchangeConnectivity
