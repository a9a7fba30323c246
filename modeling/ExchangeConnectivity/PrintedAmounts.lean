import ExchangeConnectivity.ConnectorParserDecimal
import ExchangeConnectivity.DecimalStrings
import ExchangeConnectivity.MarketDataParserDecimal

/-!
# Amounts printed by one client and read by another

The order clients print prices and quantities with `toDecimalString`.  The
connector's parser reads them all back, and both copies of the unchecked
market-data parser all but the least amount, whose magnitude does not fit.
-/

namespace ExchangeConnectivity

open ByteStrings DecimalNumerals

theorem canonicalOfUnits_wireForm (places : Nat) (units : Int) :
    (canonicalOfUnits places units).WireForm :=
  have canonical := canonicalOfUnits_isCanonical places units
  ⟨canonical.no_plus, canonical.integer_ne_nil⟩

theorem canonicalOfUnits_units (places : Nat) (units : Int) :
    (canonicalOfUnits places units).units places = units.natAbs := by
  have signed := canonicalOfUnits_signedUnits places units
  rw [Numeral.signedUnits] at signed
  split at signed <;> omega

/-- Only the least amount has a magnitude that does not fit. -/
theorem natAbs_toInt_lt_iff (amount : Int64) :
    amount.toInt.natAbs < 2 ^ 63 ↔ amount ≠ Int64.minValue := by
  have below := amount.toInt_lt
  have above := amount.le_toInt
  rw [ne_eq, ← Int64.toInt_inj, Int64.toInt_minValue]
  omega

theorem Connector.parseDecimal_toDecimalString (amount : Int64) :
    parseDecimal (BinanceSpotClient.toDecimalString amount 8) = .ok amount := by
  rw [BinanceSpotClient.toDecimalString_eq_spelling, parseDecimal_spelling_eq_ok_iff]
  exact ⟨canonicalOfUnits_precise 8 amount.toInt,
    (canonicalOfUnits_signedUnits 8 amount.toInt).symm⟩

namespace BinanceMarketDataParser

theorem parseDecimal_toDecimalString (amount : Int64) :
    parseDecimal (BinanceSpotClient.toDecimalString amount 8) =
      if amount = Int64.minValue then .error .overflow else .ok amount := by
  rw [BinanceSpotClient.toDecimalString_eq_spelling,
    parseDecimal_spelling (canonicalOfUnits_wireForm 8 amount.toInt), canonicalOfUnits_units,
    canonicalOfUnits_signedUnits, Int64.ofInt_toInt]
  by_cases least : amount = Int64.minValue
  · rw [if_pos least, if_neg (mt (natAbs_toInt_lt_iff amount).mp (not_not.mpr least))]
  · rw [if_neg least, if_pos ((natAbs_toInt_lt_iff amount).mpr least)]

end BinanceMarketDataParser

/-- What a printing function writes is read back: by the connector every
amount, by either market-data parser every amount but the least one, on which
its reading overflows. -/
structure PrintsReadably (print : Int64 → Nat → Bytes) : Prop where
  connector : ∀ amount, Connector.parseDecimal (print amount 8) = .ok amount
  marketData : ∀ amount, BinanceMarketDataParser.parseDecimal (print amount 8) =
    if amount = Int64.minValue then .error .overflow else .ok amount
  marketDataCopy : ∀ amount, BinanceDataParser.parseDecimal (print amount 8) =
    if amount = Int64.minValue then .error .overflow else .ok amount

/-- Whichever order client prints an amount, the three parsers read it back. -/
theorem printed_amounts_read_back :
    PrintsReadably BinanceSpotClient.toDecimalString ∧
      PrintsReadably BinanceOrderGateway.toDecimalString := by
  have spot : PrintsReadably BinanceSpotClient.toDecimalString :=
    { connector := Connector.parseDecimal_toDecimalString
      marketData := BinanceMarketDataParser.parseDecimal_toDecimalString
      marketDataCopy := BinanceMarketDataParser.parseDecimal_toDecimalString }
  exact ⟨spot, spot⟩

example : BinanceMarketDataParser.parseDecimal
    (BinanceSpotClient.toDecimalString (-5000000) 8) = .ok (-5000000) := by
  decide +kernel

end ExchangeConnectivity
