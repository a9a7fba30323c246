import ExchangeConnectivity.CanonicalNumerals
import ExchangeConnectivity.ConnectorParserDecimal

/-!
# Decimal strings of scaled integers

`toDecimalString` of `binance_spot_client.cpp`, of which
`binance_order_gateway.cpp` has a copy.  It prints the canonical numeral of a
scaled integer, so it inverts the validating parser and assigns to every
accepted string its canonical spelling.
-/

namespace ExchangeConnectivity

open ByteStrings DecimalNumerals

/-- `stream << std::setfill('0') << std::setw(width) << number`. -/
def printPadded (width : Nat) (number : UInt64) : Bytes :=
  let digits := decimalBytes number.toNat
  List.replicate (width - digits.length) '0'.toUInt8 ++ digits

namespace BinanceSpotClient

/-- The magnitude of a signed number, computed without overflow for the
smallest one. -/
def absoluteValue (value : Int64) : UInt64 :=
  if value < 0 then (-(value + 1)).toUInt64 + 1 else value.toUInt64

/-- `scale` after `decimalPlaces` rounds of its loop. -/
def decimalStringScale (decimalPlaces : Nat) : UInt64 :=
  (fun scale => scale * 10)^[decimalPlaces] 1

/-- `pop_back` while the last character is a zero, then once for a point. -/
def stripFraction (result : Bytes) : Bytes :=
  let result := result.rdropWhile (· = '0'.toUInt8)
  if result.getLast? = some '.'.toUInt8 then result.dropLast else result

def toDecimalString (value : Int64) (decimalPlaces : Nat) : Bytes :=
  let scale := decimalStringScale decimalPlaces
  let integerPart := absoluteValue value / scale
  let fractionalPart := absoluteValue value % scale
  let stream :=
    (if value < 0 then ['-'.toUInt8] else []) ++ decimalBytes integerPart.toNat
  if fractionalPart ≠ 0 then
    stripFraction (stream ++ '.'.toUInt8 :: printPadded decimalPlaces fractionalPart)
  else stream

end BinanceSpotClient

namespace BinanceOrderGateway

/-- The gateway's own copy. -/
def toDecimalString (value : Int64) (decimalPlaces : Nat) : Bytes :=
  BinanceSpotClient.toDecimalString value decimalPlaces

end BinanceOrderGateway

namespace BinanceSpotClient

open Connector

theorem absoluteValue_toNat (value : Int64) :
    (absoluteValue value).toNat = value.toInt.natAbs := by
  have bits : value.toUInt64.toNat = value.toBitVec.toNat := rfl
  have signed := BitVec.toInt_eq_toNat_cond value.toBitVec
  have bound := value.toBitVec.isLt
  rw [Int64.toInt_toBitVec] at signed
  unfold absoluteValue
  by_cases negative : value < 0
  · have negated : (-(value + 1)).toUInt64 + 1 = (-value).toUInt64 := by
      rw [← UInt64.toBitVec_inj]
      simp
      bv_omega
    have below : value.toInt < 0 := Int64.lt_iff_toInt_lt.mp negative
    have negatedBits : (-value).toUInt64.toNat =
        (2 ^ 64 - value.toBitVec.toNat) % 2 ^ 64 := by
      change (-value).toBitVec.toNat = _
      rw [Int64.toBitVec_neg, BitVec.toNat_neg]
    rw [if_pos negative, negated, negatedBits]
    split at signed <;> omega
  · have nonneg : 0 ≤ value.toInt :=
      Int.le_of_not_gt fun below => negative (Int64.lt_iff_toInt_lt.mpr below)
    rw [if_neg negative, bits]
    split at signed <;> omega

theorem decimalStringScale_eight : (decimalStringScale 8).toNat = 10 ^ 8 := by
  decide

theorem printPadded_eq (width : Nat) (number : UInt64) :
    printPadded width number = digitBytes (padDigits width (decimalDigits number.toNat)) := by
  have zeroByte : digitByte 0 = '0'.toUInt8 := rfl
  simp [printPadded, decimalBytes, padDigits, digitBytes, zeroByte]

/-- Stripping a nonzero fraction drops its trailing zeros and keeps the
point. -/
theorem stripFraction_eq (stream : Bytes) {digits : List Digit}
    (nonzero : digitsValue digits ≠ 0) :
    stripFraction (stream ++ pointByte :: digitBytes digits) =
      stream ++ pointByte :: digitBytes (dropTrailingZeros digits) := by
  have kept := dropTrailingZeros_ne_nil nonzero
  have stripped : (stream ++ pointByte :: digitBytes digits).rdropWhile
      (· = '0'.toUInt8) =
      (stream ++ [pointByte]) ++ digitBytes (dropTrailingZeros digits) := by
    rw [← digitBytes_dropTrailingZeros, ← rdropWhile_append, List.append_assoc,
      List.singleton_append]
    rw [digitBytes_dropTrailingZeros]
    simpa [digitBytes] using kept
  have lastDigit : ((stream ++ [pointByte]) ++
      digitBytes (dropTrailingZeros digits)).getLast? ≠ some '.'.toUInt8 := by
    obtain ⟨initial, last, shape⟩ := List.eq_nil_or_concat (dropTrailingZeros digits)
      |>.resolve_left kept
    rw [shape, List.concat_eq_append, digitBytes_append, digitBytes_cons,
      digitBytes_nil, ← List.append_assoc, List.getLast?_concat]
    exact fun equal => digitByte_ne_pointByte last (Option.some.inj equal)
  unfold stripFraction
  rw [stripped, if_neg lastDigit, List.append_assoc, List.singleton_append]

/-- The printed string spells the canonical numeral of the value. -/
theorem toDecimalString_eq_spelling (value : Int64) :
    toDecimalString value 8 = (canonicalOfUnits 8 value.toInt).spelling := by
  have magnitude := absoluteValue_toNat value
  have negativeIff : value < 0 ↔ value.toInt < 0 := Int64.lt_iff_toInt_lt
  have integerPart : (absoluteValue value / decimalStringScale 8).toNat =
      value.toInt.natAbs / 10 ^ 8 := by
    rw [UInt64.toNat_div, magnitude, decimalStringScale_eight]
  have fractionalPart : (absoluteValue value % decimalStringScale 8).toNat =
      value.toInt.natAbs % 10 ^ 8 := by
    rw [UInt64.toNat_mod, magnitude, decimalStringScale_eight]
  have sign : (if value < 0 then ['-'.toUInt8] else []) =
      Numeral.signSpelling (if value.toInt < 0 then some .minus else none) := by
    simp only [negativeIff]
    split <;> rfl
  have zeroIff : absoluteValue value % decimalStringScale 8 = 0 ↔
      value.toInt.natAbs % 10 ^ 8 = 0 := by
    rw [← fractionalPart, ← UInt64.toNat_inj]
    rfl
  unfold toDecimalString Numeral.spelling Numeral.unsignedSpelling
  simp only [integerPart, sign, canonicalOfUnits, fractionOfUnits]
  by_cases zero : value.toInt.natAbs % 10 ^ 8 = 0
  · rw [if_neg (not_not.mpr (zeroIff.mpr zero)), if_pos zero]
    simp [Numeral.fractionSpelling, decimalBytes]
  · have digitsNonzero : digitsValue
        (padDigits 8 (decimalDigits (value.toInt.natAbs % 10 ^ 8))) ≠ 0 := by
      rwa [digitsValue_padDigits, digitsValue_decimalDigits]
    rw [if_pos fun isZero => zero (zeroIff.mp isZero), if_neg zero, printPadded_eq,
      fractionalPart]
    exact (stripFraction_eq _ digitsNonzero).trans (by
      simp [Numeral.fractionSpelling, decimalBytes, List.append_assoc])

/-- `spelling` is the canonical spelling of `value`: the two strings spell
numerals of one rational, and the first numeral has no plus sign, superfluous
leading zero, trailing fractional zero, bare point or minus sign on zero. -/
def IsCanonicalSpelling (spelling value : Bytes) : Prop :=
  ∃ canonical numeral : Numeral, spelling = canonical.spelling ∧
    value = numeral.spelling ∧ canonical.IsCanonical ∧
    canonical.value = numeral.value

theorem parseDecimal_toDecimalString (value : Int64) :
    parseDecimal (toDecimalString value 8) = .ok value := by
  rw [toDecimalString_eq_spelling, parseDecimal_spelling_eq_ok_iff]
  exact ⟨canonicalOfUnits_precise 8 value.toInt,
    (canonicalOfUnits_signedUnits 8 value.toInt).symm⟩

theorem isCanonicalSpelling_iff {value : Bytes} {price : Price}
    (accepted : parseDecimal value = .ok price) (spelling : Bytes) :
    IsCanonicalSpelling spelling value ↔ spelling = toDecimalString price 8 := by
  have canonicalValue (numeral : Numeral) (shape : value = numeral.spelling) :
      (canonicalOfUnits 8 price.toInt).value = numeral.value := by
    rw [shape] at accepted
    rw [canonicalOfUnits_value, value_of_accepted accepted,
      mul_div_cancel_right₀ _ (by positivity)]
  rw [toDecimalString_eq_spelling]
  constructor
  · rintro ⟨canonical, numeral, rfl, shape, isCanonical, valueEq⟩
    rw [isCanonical.eq_of_value_eq (canonicalOfUnits_isCanonical 8 price.toInt)
      (valueEq.trans (canonicalValue numeral shape).symm)]
  · rintro rfl
    obtain ⟨numeral, shape⟩ := parseDecimal_ok accepted
    exact ⟨canonicalOfUnits 8 price.toInt, numeral, rfl, shape,
      canonicalOfUnits_isCanonical 8 price.toInt, canonicalValue numeral shape⟩

end BinanceSpotClient

open BinanceSpotClient Connector

/-- A printer of scaled integers that the validating parser inverts and that
prints the canonical spelling of every accepted string. -/
structure PrintsCanonically (print : Int64 → Nat → Bytes) : Prop where
  round_trip : ∀ value, parseDecimal (print value 8) = .ok value
  canonical : ∀ value price, parseDecimal value = .ok price →
    ∀ spelling, IsCanonicalSpelling spelling value ↔ spelling = print price 8
  same_value_iff : ∀ first second firstPrice secondPrice,
    parseDecimal first = .ok firstPrice → parseDecimal second = .ok secondPrice →
      (firstPrice = secondPrice ↔ ∃ spelling,
        IsCanonicalSpelling spelling first ∧ IsCanonicalSpelling spelling second)

/-- Both copies of `toDecimalString` print canonically, so two accepted
strings have one value exactly when they have one canonical spelling. -/
theorem toDecimalString_printsCanonically :
    PrintsCanonically BinanceSpotClient.toDecimalString ∧
      PrintsCanonically BinanceOrderGateway.toDecimalString := by
  have spot : PrintsCanonically BinanceSpotClient.toDecimalString :=
    { round_trip := parseDecimal_toDecimalString
      canonical := fun value price accepted => isCanonicalSpelling_iff accepted
      same_value_iff := by
        intro first second firstPrice secondPrice firstAccepted secondAccepted
        simp only [isCanonicalSpelling_iff firstAccepted,
          isCanonicalSpelling_iff secondAccepted, exists_eq_left]
        constructor
        · rintro rfl
          rfl
        · intro sameText
          have decoded := parseDecimal_toDecimalString firstPrice
          rw [sameText, parseDecimal_toDecimalString] at decoded
          exact (Except.ok.inj decoded).symm }
  exact ⟨spot, spot⟩

example : toDecimalString Int64.minValue 8 = ascii "-92233720368.54775808" := by
  decide

end ExchangeConnectivity
