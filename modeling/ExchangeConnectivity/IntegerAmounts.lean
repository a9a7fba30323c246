import ExchangeConnectivity.FixedWidth
import ExchangeConnectivity.OrderEndpointRequests

/-!
# Orders of integer amounts

`fromInteger` multiplies by 10^8 without a check.  A product that leaves its
64-bit type wraps, and when it wraps to a positive number the order passes
the checks of `sendOrder` with another amount.
-/

namespace ExchangeConnectivity

open ByteStrings DecimalNumerals FixedWidth

/-- `result` after the rounds of the loop of `pow10`. -/
def pow10 (exponent : Nat) : Int64 :=
  (fun result => result * 10)^[exponent] 1

/-- `ScaledValue::Scale`. -/
def scale : Int64 := pow10 decimalPlaces

/-- `ScaledValue::fromInteger`; the product wraps. -/
def Price.fromInteger (value : Int64) : Price :=
  ⟨value * scale⟩

def Quantity.fromInteger (value : Int64) : Quantity :=
  ⟨value * scale⟩

theorem scale_toInt : scale.toInt = 10 ^ 8 := by
  decide

/-- The product is exact when it fits. -/
theorem toInt_mul_scale_iff (value : Int64) :
    (value * scale).toInt = value.toInt * 10 ^ 8 ↔ FitsInt64 (value.toInt * 10 ^ 8) := by
  constructor
  · intro exact
    rw [← exact]
    exact fitsInt64_toInt _
  · rintro ⟨lower, upper⟩
    rw [Int64.toInt_mul, scale_toInt]
    exact Int.bmod_eq_of_le (by omega) (by omega)

namespace BinanceSpotClient

/-- The text is a numeral of this integer. -/
def DenotesInteger (text : Bytes) (value : Int64) : Prop :=
  ∃ numeral : Numeral, text = numeral.spelling ∧ numeral.value = value.toInt

theorem denotesInteger_iff (raw value : Int64) :
    DenotesInteger (toDecimalString raw decimalPlaces) value ↔
      raw.toInt = value.toInt * 10 ^ 8 := by
  have denoted : DenotesInteger (toDecimalString raw decimalPlaces) value ↔
      (canonicalOfUnits 8 raw.toInt).value = value.toInt := by
    rw [decimalPlaces, toDecimalString_eq_spelling]
    constructor
    · rintro ⟨numeral, spelled, valueEq⟩
      rwa [Numeral.spelling_injective spelled]
    · exact fun valueEq => ⟨_, rfl, valueEq⟩
  rw [denoted, canonicalOfUnits_value, div_eq_iff (by positivity)]
  exact_mod_cast Iff.rfl

/-- The quantity of an order, and its price where it has one, are these
integers. -/
structure CarriesAmounts (price quantity : Int64) (parameters : List (Bytes × Bytes)) :
    Prop where
  quantity : Carries parameters "quantity" fun text => DenotesInteger text quantity
  limit_price : parameters.lookup (ascii "type") = some (ascii "LIMIT") →
    Carries parameters "price" fun text => DenotesInteger text price
  price : ∀ text, parameters.lookup (ascii "price") = some text → DenotesInteger text price

/-- An order of integer amounts. -/
def integerOrder (instrument : UInt32) (side : Side) (type : OrderType)
    (price quantity : Int64) : OrderRequest :=
  { instrument, side, type
    price := .fromInteger price
    quantity := .fromInteger quantity }

/-- Every transmitted order of these amounts carries them. -/
def AmountsExact (price quantity : Int64) : Prop :=
  ∀ (hmac : Bytes → Int32 → Bytes → Option Bytes)
    (simdjson : Simdjson.Library) (Output : Type) (client : Client)
    (timestamp : UInt64) (instrument : UInt32) (side : Side) (type : OrderType)
    (clientOrderId : UInt64) (handler : Handler OrderResponse Output),
    ∀ request ∈ (sendOrder hmac simdjson client timestamp
      (integerOrder instrument side type price quantity) clientOrderId handler).transmitted,
      ∃ parameters, requestParameters request = some parameters ∧
        CarriesAmounts price quantity parameters

/-- The scaled value passes for positive only if it has not overflowed. -/
def ScalesSafely (value : Int64) : Prop :=
  0 < value * scale → FitsInt64 (value.toInt * 10 ^ 8)

section Parameters

variable {client : Client} {timestamp clientOrderId : UInt64}

/-- The parameters of an order carry its amounts when the products that are
sent fit. -/
theorem carriesAmounts_of_fits {instrument : UInt32} {side : Side} {type : OrderType}
    {price quantity : Int64} (quantityFits : FitsInt64 (quantity.toInt * 10 ^ 8))
    (priceFits : type = .limit → FitsInt64 (price.toInt * 10 ^ 8)) :
    CarriesAmounts price quantity
      (plainParameters
        (orderParameters client (integerOrder instrument side type price quantity)
          clientOrderId ++ windowParameters client timestamp)) := by
  have denotes {value : Int64} (fits : FitsInt64 (value.toInt * 10 ^ 8)) :
      DenotesInteger (toDecimalString (value * scale) decimalPlaces) value :=
    (denotesInteger_iff _ value).mpr ((toInt_mul_scale_iff value).mpr fits)
  constructor
  · exact ⟨_, lookup_quantity, denotes quantityFits⟩
  · intro limitText
    have limit := type_eq_limit_of_lookup limitText
    exact ⟨_, lookup_price_of_limit limit, denotes (priceFits limit)⟩
  · intro text found
    by_cases limit : type = .limit
    · rw [lookup_price_of_limit limit] at found
      rw [← Option.some.inj found]
      exact denotes (priceFits limit)
    · rw [lookup_price_of_not_limit limit] at found
      cases found

end Parameters

def sendingClient : Client where
  credentials := ⟨ascii "key", ascii "secret"⟩

/-- A signature for every payload. -/
def constantHmac (_key : Bytes) (_length : Int32) (_payload : Bytes) : Option Bytes :=
  some [0x2A]

/-- A valid order is transmitted, and its amounts can be read. -/
theorem carriesAmounts_of_exact {type : OrderType} {price quantity : Int64}
    (exact : AmountsExact price quantity)
    (valid : ValidOrder (integerOrder 1 .buy type price quantity) 1) :
    CarriesAmounts price quantity
      (plainParameters (orderParameters sendingClient
        (integerOrder 1 .buy type price quantity) 1 ++ windowParameters sendingClient 0)) := by
  let simdjson := Simdjson.Library.unreadable
  have signature : orderSignature constantHmac sendingClient 0
      (integerOrder 1 .buy type price quantity) 1 = ascii "2A" :=
    rfl
  have signable : Signable sendingClient.credentials sendingClient.symbol
      (orderSignature constantHmac sendingClient 0 (integerOrder 1 .buy type price quantity) 1) :=
    ⟨by decide, by decide, by decide, by rw [signature]; decide⟩
  have sent := sendOrder_transmitted constantHmac simdjson sendingClient 0
    (fun _ => [()]) valid signable
  have member := List.mem_singleton_self
    (orderHttpRequest constantHmac sendingClient 0 (integerOrder 1 .buy type price quantity) 1)
  rw [← sent] at member
  obtain ⟨parameters, decoded, carries⟩ :=
    exact constantHmac simdjson Unit sendingClient 0 1 .buy type 1 (some fun _ => [()]) _ member
  rw [(orderTransmitted member).parameters, Option.some.injEq] at decoded
  rwa [decoded]

theorem fits_of_denotes {value : Int64}
    (denotes : DenotesInteger (toDecimalString (value * scale) decimalPlaces) value) :
    FitsInt64 (value.toInt * 10 ^ 8) :=
  (toInt_mul_scale_iff value).mp ((denotesInteger_iff _ value).mp denotes)

/-- The amounts of all orders of these integers are exact when no product
that passes for positive has overflowed; the price counts only beside a
quantity that passes. -/
theorem amountsExact_iff (price quantity : Int64) :
    AmountsExact price quantity ↔
      ScalesSafely quantity ∧ (0 < quantity * scale → ScalesSafely price) := by
  constructor
  · intro exact
    constructor
    · intro positive
      have valid : ValidOrder (integerOrder 1 .buy .market price quantity) 1 :=
        ⟨by decide, positive, Side.Declared.toText_ne_nil (.inl rfl),
          OrderType.Declared.toText_ne_nil (.inl rfl), fun limit => nomatch limit⟩
      obtain ⟨text, found, denotes⟩ := (carriesAmounts_of_exact exact valid).quantity
      rw [lookup_quantity, Option.some.injEq] at found
      rw [← found] at denotes
      exact fits_of_denotes denotes
    · intro positive pricePositive
      have valid : ValidOrder (integerOrder 1 .buy .limit price quantity) 1 :=
        ⟨by decide, positive, Side.Declared.toText_ne_nil (.inl rfl),
          OrderType.Declared.toText_ne_nil (.inr rfl), fun _ => pricePositive⟩
      exact fits_of_denotes
        ((carriesAmounts_of_exact exact valid).price _ (lookup_price_of_limit rfl))
  · rintro ⟨quantitySafe, priceSafe⟩ hmac simdjson Output client timestamp instrument side type
      clientOrderId handler request member
    have sent := orderTransmitted member
    have positive : 0 < quantity * scale := sent.valid.2.1
    refine ⟨_, sent.parameters, carriesAmounts_of_fits (quantitySafe positive) fun limit => ?_⟩
    exact priceSafe positive (sent.valid.2.2.2.2 limit)

/-- Scaling 2^56 + 1 wraps to the scaled value of one. -/
theorem amounts_wrapped :
    Quantity.fromInteger 72057594037927937 = Quantity.fromInteger 1 ∧
      ¬ AmountsExact 1 72057594037927937 := by
  have wrapped : Quantity.fromInteger 72057594037927937 = Quantity.fromInteger 1 := by decide
  refine ⟨wrapped, fun exact => ?_⟩
  have valid : ValidOrder (integerOrder 1 .buy .market 1 72057594037927937) 1 := by decide
  obtain ⟨text, found, denotes⟩ := (carriesAmounts_of_exact exact valid).quantity
  rw [lookup_quantity, Option.some.injEq] at found
  rw [← found] at denotes
  have fits := fits_of_denotes denotes
  revert fits
  decide

end BinanceSpotClient

end ExchangeConnectivity
