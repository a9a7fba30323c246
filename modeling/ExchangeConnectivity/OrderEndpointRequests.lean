import ExchangeConnectivity.OrderRequestAgreement
import ExchangeConnectivity.SignedQueries

/-!
# What reaches the order endpoint

Every request that `sendOrder` and `cancelOrder` of the spot client transmit
is read back as its decoded parameters.  `sendOrder` checks all the fields it
sends; `cancelOrder` does not check the symbol, which `sendOrder` does.
-/

namespace ExchangeConnectivity

open ByteStrings DecimalNumerals PercentEncoding

namespace BinanceSpotClient

/-- The decoded parameters of a signed request. -/
def requestParameters (request : HttpRequest) : Option (List (Bytes × Bytes)) := do
  let payload ← signedPayload request.target
  parseQuery payload

/-- The parameters as a receiver decodes them. -/
def plainParameters (parameters : List Parameter) : List (Bytes × Bytes) :=
  parameters.map fun parameter => (parameter.1, parameter.2.plain)

theorem requestParameters_of_signed {hmac : Bytes → Int32 → Bytes → Option Bytes}
    {secretKey endpoint payload signature : Bytes} {request : HttpRequest}
    {parameters : List Parameter}
    (signed : SignedTarget hmac secretKey endpoint request.target parameters payload
      signature) :
    requestParameters request = some (plainParameters parameters) := by
  rw [requestParameters, signedPayload_eq signed]
  exact signed.decodes

section Transmitted

variable {hmac : Bytes → Int32 → Bytes → Option Bytes}
variable {simdjson : Simdjson.Library}
variable {client : Client} {timestamp : UInt64} {Output : Type}

theorem asyncSignedRequest_method {method : Verb} {endpoint query : Bytes}
    {handler : Handler ApiResponse Output} {request : HttpRequest}
    (member : request ∈
      (asyncSignedRequest hmac client timestamp method endpoint query handler).transmitted) :
    request.method = method := by
  cases handler with
  | none => cases member
  | some handler =>
      simp only [asyncSignedRequest] at member
      split_ifs at member
      · cases member
      · cases member
      · rw [List.mem_singleton.mp member]

/-- A transmitted order was valid, for a client with a symbol, and carries the
parameters of the order. -/
structure OrderTransmitted (client : Client) (timestamp : UInt64) (order : OrderRequest)
    (clientOrderId : UInt64) (request : HttpRequest) : Prop where
  valid : ValidOrder order clientOrderId
  symbol : client.symbol ≠ []
  method : request.method = .post
  parameters : requestParameters request =
    some (plainParameters (orderParameters client order clientOrderId ++
      windowParameters client timestamp))

theorem orderTransmitted {order : OrderRequest} {clientOrderId : UInt64}
    {handler : Handler OrderResponse Output} {request : HttpRequest}
    (member : request ∈
      (sendOrder hmac simdjson client timestamp order clientOrderId handler).transmitted) :
    OrderTransmitted client timestamp order clientOrderId request := by
  obtain ⟨handed, handedMember, rfl⟩ := List.mem_map.mp member
  obtain ⟨-, payload, signature, signed⟩ := sendOrder_signed handedMember
  cases handler with
  | none => cases member
  | some handler =>
      by_cases sent : ValidOrder order clientOrderId ∧
          Signable client.credentials client.symbol
            (orderSignature hmac client timestamp order clientOrderId)
      · refine ⟨sent.1, sent.2.symbol, ?_, requestParameters_of_signed signed⟩
        rw [sendOrder_transmitted hmac simdjson client timestamp handler sent.1 sent.2] at member
        rw [List.mem_singleton.mp member]
        rfl
      · rw [sendOrder_withheld hmac simdjson client timestamp handler sent] at member
        cases member

/-- A transmitted cancellation has an order id, and carries it with whatever
symbol the client has. -/
structure CancellationTransmitted (client : Client) (timestamp exchangeOrderId : UInt64)
    (request : HttpRequest) : Prop where
  valid : exchangeOrderId ≠ 0
  method : request.method = .delete
  parameters : requestParameters request =
    some (plainParameters (cancelParameters client exchangeOrderId ++
      windowParameters client timestamp))

theorem cancellationTransmitted {exchangeOrderId : UInt64}
    {handler : Handler CancelResponse Output} {request : HttpRequest}
    (member : request ∈
      (cancelOrder hmac simdjson client timestamp exchangeOrderId handler).transmitted) :
    CancellationTransmitted client timestamp exchangeOrderId request := by
  obtain ⟨handed, handedMember, rfl⟩ := List.mem_map.mp member
  obtain ⟨payload, signature, signed⟩ := cancelOrder_signed handedMember
  have parameters := requestParameters_of_signed signed
  cases handler with
  | none => cases member
  | some handler =>
      simp only [cancelOrder] at member
      split_ifs at member with zero
      · cases member
      · exact ⟨zero, asyncSignedRequest_method member, parameters⟩

end Transmitted

section Lookups

variable {client : Client} {timestamp clientOrderId : UInt64} {order : OrderRequest}

theorem lookup_quantity :
    (plainParameters (orderParameters client order clientOrderId ++
      windowParameters client timestamp)).lookup (ascii "quantity") =
        some (toDecimalString order.quantity.raw decimalPlaces) :=
  rfl

theorem lookup_price_of_limit (limit : order.type = .limit) :
    (plainParameters (orderParameters client order clientOrderId ++
      windowParameters client timestamp)).lookup (ascii "price") =
        some (toDecimalString order.price.raw decimalPlaces) := by
  rw [orderParameters, if_pos limit]
  rfl

theorem lookup_price_of_not_limit (notLimit : order.type ≠ .limit) :
    (plainParameters (orderParameters client order clientOrderId ++
      windowParameters client timestamp)).lookup (ascii "price") = none := by
  rw [orderParameters, if_neg notLimit]
  rfl

theorem type_eq_limit_of_lookup
    (limitText : (plainParameters (orderParameters client order clientOrderId ++
      windowParameters client timestamp)).lookup (ascii "type") = some (ascii "LIMIT")) :
    order.type = .limit := by
  have text : order.type.toText = OrderType.limit.toText := Option.some.inj limitText
  apply type_eq_of_toText _ text
  rw [text]
  decide

end Lookups

/-- A parameter whose decoded value has this property. -/
def Carries (parameters : List (Bytes × Bytes)) (key : String) (property : Bytes → Prop) :
    Prop :=
  ∃ text, parameters.lookup (ascii key) = some text ∧ property text

/-- A text that a receiver reads as a number other than zero. -/
def IsNonzeroNumber (text : Bytes) : Prop :=
  ∃ digits, text = digitBytes digits ∧ digitsValue digits ≠ 0

/-- A text that a receiver reads as a price or quantity greater than zero. -/
def IsPositiveDecimal (text : Bytes) : Prop :=
  ∃ raw, Connector.parseDecimal text = .ok raw ∧ 0 < raw

structure CarriesOrder (parameters : List (Bytes × Bytes)) : Prop where
  symbol : Carries parameters "symbol" fun text => text ≠ []
  clientOrderId : Carries parameters "newClientOrderId" IsNonzeroNumber
  side : Carries parameters "side" fun text => text ≠ []
  type : Carries parameters "type" fun text => text ≠ []
  quantity : Carries parameters "quantity" IsPositiveDecimal
  price : parameters.lookup (ascii "type") = some (ascii "LIMIT") →
    Carries parameters "price" IsPositiveDecimal

structure CarriesCancellation (parameters : List (Bytes × Bytes)) : Prop where
  symbol : Carries parameters "symbol" fun text => text ≠ []
  orderId : Carries parameters "orderId" IsNonzeroNumber

/-- A request to the order endpoint is an order or a cancellation with all
its fields. -/
def CarriesFields (request : HttpRequest) : Prop :=
  ∃ parameters, requestParameters request = some parameters ∧
    (request.method = .post ∧ CarriesOrder parameters ∨
      request.method = .delete ∧ CarriesCancellation parameters)

theorem isNonzeroNumber_decimalBytes {number : UInt64} (nonzero : number ≠ 0) :
    IsNonzeroNumber (decimalBytes number.toNat) := by
  refine ⟨decimalDigits number.toNat, rfl, ?_⟩
  rw [digitsValue_decimalDigits]
  exact fun zero => nonzero (UInt64.toNat_inj.mp zero)

theorem isPositiveDecimal_toDecimalString {raw : Int64} (positive : 0 < raw) :
    IsPositiveDecimal (toDecimalString raw decimalPlaces) :=
  ⟨raw, parseDecimal_toDecimalString raw, positive⟩

theorem OrderTransmitted.carriesFields {client : Client} {timestamp clientOrderId : UInt64}
    {order : OrderRequest} {request : HttpRequest}
    (transmitted : OrderTransmitted client timestamp order clientOrderId request) :
    CarriesFields request := by
  obtain ⟨⟨nonzero, quantity, side, type, price⟩, symbol, method, parameters⟩ := transmitted
  refine ⟨_, parameters, Or.inl ⟨method, ?_⟩⟩
  exact
    { symbol := ⟨client.symbol, rfl, symbol⟩
      clientOrderId := ⟨_, rfl, isNonzeroNumber_decimalBytes nonzero⟩
      side := ⟨order.side.toText, rfl, side⟩
      type := ⟨order.type.toText, rfl, type⟩
      quantity := ⟨_, lookup_quantity, isPositiveDecimal_toDecimalString quantity⟩
      price := fun limitText =>
        have limit := type_eq_limit_of_lookup limitText
        ⟨_, lookup_price_of_limit limit, isPositiveDecimal_toDecimalString (price limit)⟩ }

theorem CancellationTransmitted.carriesFields {client : Client}
    {timestamp exchangeOrderId : UInt64} {request : HttpRequest}
    (transmitted : CancellationTransmitted client timestamp exchangeOrderId request)
    (symbol : client.symbol ≠ []) : CarriesFields request := by
  obtain ⟨nonzero, method, parameters⟩ := transmitted
  refine ⟨_, parameters, Or.inr ⟨method, ?_⟩⟩
  exact
    { symbol := ⟨client.symbol, rfl, symbol⟩
      orderId := ⟨_, rfl, isNonzeroNumber_decimalBytes nonzero⟩ }

/-- A call of an operation on the order endpoint; `handled` says whether its
handler is non-empty. -/
inductive Call
  | sendOrder (timestamp : UInt64) (order : OrderRequest) (clientOrderId : UInt64)
      (handled : Bool)
  | cancelOrder (timestamp exchangeOrderId : UInt64) (handled : Bool)

namespace Call

/-- A handler that records what it is called with, or none. -/
def handler {Answer : Type} (handled : Bool) : Handler Answer Answer :=
  if handled then record else none

/-- The error an answer reports. -/
def errorCode {Result : Type} : Except BinanceApiError Result → Option BinanceApiErrorCode
  | .ok _ => none
  | .error error => some error.code

def Handled : Call → Prop
  | .sendOrder _ _ _ handled => handled = true
  | .cancelOrder _ _ handled => handled = true

/-- The symbol of the client and the fields of the call can be sent. -/
def Valid (client : Client) : Call → Prop
  | .sendOrder _ order clientOrderId _ =>
      client.symbol ≠ [] ∧ ValidOrder order clientOrderId
  | .cancelOrder _ exchangeOrderId _ => client.symbol ≠ [] ∧ exchangeOrderId ≠ 0

section Effects

variable (hmac : Bytes → Int32 → Bytes → Option Bytes)
variable (simdjson : Simdjson.Library) (client : Client)

/-- The requests a call transmits. -/
def transmitted : Call → List HttpRequest
  | .sendOrder timestamp order clientOrderId handled =>
      (BinanceSpotClient.sendOrder hmac simdjson client timestamp order clientOrderId
        (handler handled)).transmitted
  | .cancelOrder timestamp exchangeOrderId handled =>
      (BinanceSpotClient.cancelOrder hmac simdjson client timestamp exchangeOrderId
        (handler handled)).transmitted

/-- The errors among the answers a call gives before it returns. -/
def answered : Call → List (Option BinanceApiErrorCode)
  | .sendOrder timestamp order clientOrderId handled =>
      (BinanceSpotClient.sendOrder hmac simdjson client timestamp order clientOrderId
        (handler handled)).outputs.map errorCode
  | .cancelOrder timestamp exchangeOrderId handled =>
      (BinanceSpotClient.cancelOrder hmac simdjson client timestamp exchangeOrderId
        (handler handled)).outputs.map errorCode

/-- A call transmits nothing, and ends with `InvalidRequest` if it has a
handler. -/
structure Rejected (call : Call) : Prop where
  silent : call.transmitted hmac simdjson client = []
  invalid : call.Handled → call.answered hmac simdjson client = [some .invalidRequest]

/-- What a call transmits carries all fields, and a call that cannot be sent
is rejected. -/
structure Checked (call : Call) : Prop where
  carries : ∀ request ∈ call.transmitted hmac simdjson client, CarriesFields request
  rejects : ¬ call.Valid client → call.Rejected hmac simdjson client

/-- The calls that are not checked: a cancellation of some order by a client
without a symbol. -/
def Unchecked (client : Client) : Call → Prop
  | .sendOrder _ _ _ _ => False
  | .cancelOrder _ exchangeOrderId handled =>
      client.symbol = [] ∧ exchangeOrderId ≠ 0 ∧ handled = true

end Effects

section Steps

variable {hmac : Bytes → Int32 → Bytes → Option Bytes}
variable {simdjson : Simdjson.Library} {client : Client}

theorem sendOrder_rejected {timestamp clientOrderId : UInt64} {order : OrderRequest}
    {handled : Bool} (invalid : ¬ (client.symbol ≠ [] ∧ ValidOrder order clientOrderId)) :
    (Call.sendOrder timestamp order clientOrderId handled).Rejected hmac simdjson client := by
  cases handled with
  | false => exact ⟨rfl, fun called => nomatch called⟩
  | true =>
      have refused : ∃ message, refusal (orderChecks hmac client timestamp order clientOrderId) =
          some (makeError .invalidRequest message) := by
        rw [orderChecks, refusal_cons]
        by_cases valid : ValidOrder order clientOrderId
        · have unnamed : client.symbol = [] := by
            by_contra named
            exact invalid ⟨named, valid⟩
          exact ⟨ascii "Instrument symbol is empty", by simp [valid, refusal_cons, unnamed]⟩
        · exact ⟨ascii "Invalid order parameters", by simp [valid]⟩
      obtain ⟨message, refused⟩ := refused
      obtain ⟨outputs, requests⟩ :=
        (sendOrder_contract hmac simdjson client timestamp order clientOrderId).refuses _ refused
      constructor
      · exact congrArg (List.map Prod.fst) requests
      · exact fun _ => congrArg (List.map errorCode) outputs

theorem cancelOrder_rejected {timestamp : UInt64} {handled : Bool} :
    (Call.cancelOrder timestamp 0 handled).Rejected hmac simdjson client := by
  cases handled with
  | false => exact ⟨rfl, fun called => nomatch called⟩
  | true => exact ⟨rfl, fun _ => rfl⟩

/-- A cancellation without a symbol goes wrong after the checks: it fails to
be signed, or it is transmitted. -/
theorem cancelOrder_not_rejected {timestamp exchangeOrderId : UInt64}
    (nonzero : exchangeOrderId ≠ 0) :
    ¬ (Call.cancelOrder timestamp exchangeOrderId true).Rejected hmac simdjson client := by
  intro rejected
  have silent := rejected.silent
  have invalid := rejected.invalid rfl
  simp only [transmitted, handler, record, if_true, BinanceSpotClient.cancelOrder,
    if_neg nonzero, asyncSignedRequest, readingHandler] at silent
  simp only [answered, handler, record, if_true, BinanceSpotClient.cancelOrder,
    if_neg nonzero, asyncSignedRequest, readingHandler] at invalid
  split_ifs at silent invalid
  · cases invalid
  · cases invalid
  · cases silent

/-- One call is checked exactly when it is not an unchecked cancellation. -/
theorem checked_iff (call : Call) :
    call.Checked hmac simdjson client ↔ ¬ call.Unchecked client := by
  cases call with
  | sendOrder timestamp order clientOrderId handled =>
      constructor
      · exact fun _ unchecked => unchecked
      · exact fun _ => ⟨fun _ member => (orderTransmitted member).carriesFields,
          sendOrder_rejected⟩
  | cancelOrder timestamp exchangeOrderId handled =>
      constructor
      · rintro checked ⟨unnamed, nonzero, rfl⟩
        exact cancelOrder_not_rejected nonzero
          (checked.rejects fun valid => valid.1 unnamed)
      · intro notUnchecked
        constructor
        · intro request member
          have sent := cancellationTransmitted member
          cases handled with
          | false => cases member
          | true =>
              exact sent.carriesFields fun unnamed => notUnchecked ⟨unnamed, sent.valid, rfl⟩
        · intro invalid
          by_cases zero : exchangeOrderId = 0
          · subst zero
            exact cancelOrder_rejected
          · cases handled with
            | false => exact ⟨rfl, fun called => nomatch called⟩
            | true =>
                have unnamed : client.symbol = [] := by
                  by_contra named
                  exact invalid ⟨named, zero⟩
                exact absurd ⟨unnamed, zero, rfl⟩ notUnchecked

end Steps

end Call

/-- Every request a client transmits in a sequence of calls carries all
fields, and every call that cannot be sent is rejected. -/
structure CallsChecked (hmac : Bytes → Int32 → Bytes → Option Bytes)
    (simdjson : Simdjson.Library) (client : Client) (calls : List Call) :
    Prop where
  carries : ∀ request ∈ calls.flatMap (Call.transmitted hmac simdjson client),
    CarriesFields request
  rejects : ∀ call ∈ calls, ¬ call.Valid client → call.Rejected hmac simdjson client

/-- The calls are checked unless an order is cancelled without a symbol. -/
theorem callsChecked_iff (hmac : Bytes → Int32 → Bytes → Option Bytes)
    (simdjson : Simdjson.Library) (client : Client) (calls : List Call) :
    CallsChecked hmac simdjson client calls ↔ ∀ call ∈ calls, ¬ call.Unchecked client := by
  have each : CallsChecked hmac simdjson client calls ↔
      ∀ call ∈ calls, call.Checked hmac simdjson client := by
    constructor
    · intro checked call member
      exact ⟨fun request sent => checked.carries request (List.mem_flatMap.mpr
        ⟨call, member, sent⟩), checked.rejects call member⟩
    · intro all
      constructor
      · intro request sent
        obtain ⟨call, member, inside⟩ := List.mem_flatMap.mp sent
        exact (all call member).carries request inside
      · exact fun call member => (all call member).rejects
  rw [each]
  exact forall₂_congr fun call _ => Call.checked_iff call

/-- A client without a symbol that cancels order 7. -/
def unnamedClient : Client where
  credentials := ⟨ascii "key", ascii "secret"⟩
  symbol := []

theorem cancellation_without_symbol :
    (Call.cancelOrder 1700000000000 7 true).transmitted (fun _ _ _ => some [0x2A])
        .unreadable unnamedClient =
      [{ host := ascii "testnet.binance.vision"
         port := ascii "443"
         target := ascii ("/api/v3/order?symbol=&orderId=7&recvWindow=5000" ++
           "&timestamp=1700000000000&signature=2A")
         method := .delete
         headers := [(ascii "X-MBX-APIKEY", ascii "key")] }] ∧
    ¬ CallsChecked (fun _ _ _ => some [0x2A]) .unreadable unnamedClient
      [.cancelOrder 1700000000000 7 true] := by
  constructor
  · decide +kernel
  · intro checked
    exact Call.cancelOrder_not_rejected (by decide)
      (checked.rejects _ (List.mem_singleton_self _) fun valid => valid.1 rfl)

end BinanceSpotClient

end ExchangeConnectivity
