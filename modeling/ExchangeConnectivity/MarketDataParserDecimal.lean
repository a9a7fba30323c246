import ExchangeConnectivity.DecimalNumerals
import ExchangeConnectivity.MarketDataParser

/-!
# Where the unchecked decimal parser is exact

`BinanceMarketDataParser.parseDecimal` accumulates digits in a signed 64-bit
integer without a range check.  On a numeral of the wire form it yields the
truncated number of hundred-millionths when that magnitude is below `2 ^ 63`
and overflows otherwise; klines and tickers inherit the condition for each of
their decimal fields.
-/

namespace ExchangeConnectivity

open ByteStrings DecimalNumerals FailingComputations FixedWidth

namespace BinanceMarketDataParser

theorem int64_natCast (number : Nat) :
    int64 number =
      if number < 2 ^ 63 then .ok (number : Int) else .error .overflow := by
  have fitsIff : FitsInt64 number ↔ number < 2 ^ 63 := by
    unfold FitsInt64
    omega
  simp only [int64, checkInt64, fitsIff]

theorem digitOf_digitByte (digit : Digit) : digitOf (digitByte digit) = digit.val := by
  revert digit
  decide

/-- Appending a digit to an accumulator takes two checked operations. -/
private theorem int64_shift_digit {Value : Type} (number : Nat) (digit : Digit)
    (next : Int → Except Fault Value) :
    (int64 (number * 10) >>= fun shifted =>
        int64 (shifted + digitOf (digitByte digit)) >>= next) =
      if number * 10 + digit.val < 2 ^ 63 then
        next ((number * 10 + digit.val : Nat) : Int)
      else .error .overflow := by
  have shiftedCast : (number : Int) * 10 = ((number * 10 : Nat) : Int) := by
    push_cast
    rfl
  have sumCast : ((number * 10 : Nat) : Int) + (digit.val : Int) =
      ((number * 10 + digit.val : Nat) : Int) := by
    push_cast
    rfl
  rw [shiftedCast, int64_natCast, digitOf_digitByte]
  by_cases shiftedFits : number * 10 < 2 ^ 63
  · rw [if_pos shiftedFits, ok_bind, sumCast, int64_natCast]
    split <;> rfl
  · rw [if_neg shiftedFits, error_bind, if_neg (by omega)]

theorem readInteger_digits (number : Nat) (digits : List Digit) {rest : Bytes}
    (fits : number < 2 ^ 63)
    (stops : ∀ byte tail, rest = byte :: tail → byte = '.'.toUInt8) :
    readInteger number (digitBytes digits ++ rest) =
      if number * 10 ^ digits.length + digitsValue digits < 2 ^ 63 then
        .ok (((number * 10 ^ digits.length + digitsValue digits : Nat) : Int), rest)
      else .error .overflow := by
  induction digits generalizing number with
  | nil =>
      rw [if_pos (by simpa using fits), digitBytes_nil, List.nil_append]
      cases rest with
      | nil => simp [readInteger, pure, Except.pure]
      | cons byte tail =>
          rw [readInteger, if_pos (stops byte tail rfl)]
          simp [pure, Except.pure]
  | cons digit digits ih =>
      have notPoint : digitByte digit ≠ '.'.toUInt8 := digitByte_ne_pointByte digit
      have shifted := shift_digitsValue number digit digits
      have grows : number * 10 + digit.val ≤
          (number * 10 + digit.val) * 10 ^ digits.length :=
        Nat.le_mul_of_pos_right _ (Nat.pow_pos (by omega))
      rw [digitBytes_cons, List.cons_append, readInteger, if_neg notPoint,
        int64_shift_digit]
      by_cases nextFits : number * 10 + digit.val < 2 ^ 63
      · rw [if_pos nextFits, ih _ nextFits, shifted]
      · rw [if_neg nextFits, if_neg (by omega)]

theorem readFraction_digits (number places : Nat) (digits : List Digit)
    (placesLe : places ≤ 8) (bound : number < 10 ^ places) :
    readFraction number places (digitBytes digits) =
      .ok (((number * 10 ^ (digits.take (8 - places)).length +
          digitsValue (digits.take (8 - places)) : Nat) : Int),
        places + (digits.take (8 - places)).length) := by
  induction digits generalizing number places with
  | nil => simp [readFraction, pure, Except.pure]
  | cons digit digits ih =>
      rw [digitBytes_cons, readFraction]
      rcases Nat.lt_or_eq_of_le placesLe with room | rfl
      · have digitLt := digit.isLt
        have nextBound : number * 10 + digit.val < 10 ^ (places + 1) := by
          rw [pow_succ]
          omega
        have powerLe : 10 ^ (places + 1) ≤ 10 ^ 8 :=
          Nat.pow_le_pow_right (by omega) room
        have roomEq : 8 - places = 8 - (places + 1) + 1 := by omega
        have placesEq (kept : List Digit) :
            places + 1 + kept.length = places + (digit :: kept).length := by
          rw [List.length_cons]
          omega
        rw [if_pos room, int64_shift_digit, if_pos (by omega),
          ih _ (places + 1) room nextBound, roomEq, List.take_succ_cons,
          shift_digitsValue, placesEq]
      · rw [if_neg (by omega)]
        simp [pure, Except.pure]

theorem fillFraction_eq (rounds number : Nat) (fits : number * 10 ^ rounds < 2 ^ 63) :
    fillFraction rounds number = .ok ((number * 10 ^ rounds : Nat) : Int) := by
  induction rounds generalizing number with
  | zero => simp [fillFraction, pure, Except.pure]
  | succ rounds ih =>
      have shifted : number * 10 ^ (rounds + 1) = number * 10 * 10 ^ rounds := by
        rw [pow_succ]
        ring
      have shiftedCast : (number : Int) * 10 = ((number * 10 : Nat) : Int) := by
        push_cast
        rfl
      have grows : number * 10 ≤ number * 10 * 10 ^ rounds :=
        Nat.le_mul_of_pos_right _ (Nat.pow_pos (by omega))
      rw [shifted] at fits ⊢
      rw [fillFraction, shiftedCast, int64_natCast, if_pos (by omega), ok_bind,
        ih _ fits]

/-- The fraction never overflows: it is the value of its first eight places. -/
theorem parseFraction_spelling (fraction : Option (List Digit)) :
    parseFraction (Numeral.fractionSpelling fraction) =
      .ok (leadingPlaces 8 (fraction.getD []) : Int) := by
  have placesLt := leadingPlaces_lt 8 (fraction.getD [])
  have placesFits : leadingPlaces 8 (fraction.getD []) < 2 ^ 63 :=
    lt_trans placesLt (by norm_num)
  cases fraction with
  | none =>
      have filled := fillFraction_eq 8 0 (by norm_num)
      rw [Nat.zero_mul] at filled
      rw [Numeral.fractionSpelling, parseFraction, leadingPlaces, Option.getD_none,
        List.take_nil, digitsValue_nil, Nat.zero_mul]
      exact filled
  | some digits =>
      have run := readFraction_digits 0 0 digits (Nat.zero_le _) Nat.one_pos
      rw [Nat.zero_mul, Nat.zero_add, Nat.zero_add, Nat.sub_zero, Nat.cast_zero] at run
      rw [Option.getD_some, leadingPlaces] at placesFits
      rw [Numeral.fractionSpelling, parseFraction, run, ok_bind, Option.getD_some,
        leadingPlaces]
      exact fillFraction_eq _ _ placesFits

/-- The numeral denotes fewer than `2 ^ 63` hundred-millionths. -/
def InRange (numeral : Numeral) : Prop :=
  |numeral.value| * 10 ^ 8 < 2 ^ 63

theorem inRange_iff (numeral : Numeral) :
    InRange numeral ↔ numeral.units 8 < 2 ^ 63 := by
  have magnitude : |numeral.value| = numeral.magnitude := by
    have nonneg := numeral.magnitude_nonneg
    unfold Numeral.value
    split
    · rw [abs_neg, abs_of_nonneg nonneg]
    · rw [abs_of_nonneg nonneg]
  have nonneg := trailingPart_nonneg 8 numeral.fractionDigits
  have ltOne := trailingPart_lt_one 8 numeral.fractionDigits
  rw [InRange, magnitude, numeral.magnitude_scaled]
  constructor
  · intro below
    have cast : (numeral.units 8 : ℚ) < 2 ^ 63 := by linarith
    exact_mod_cast cast
  · intro below
    have cast : (numeral.units 8 : ℚ) + 1 ≤ 2 ^ 63 := by exact_mod_cast below
    linarith

theorem head?_spelling {numeral : Numeral} (wireForm : numeral.WireForm) :
    (numeral.spelling.head? = some '-'.toUInt8) ↔ numeral.negative = true := by
  have noPlus := wireForm.1
  unfold Numeral.spelling Numeral.signSpelling Numeral.negative
  rcases sign : numeral.sign with _ | _ | _
  · have notMinus : numeral.unsignedSpelling.head? ≠ some '-'.toUInt8 :=
      numeral.unsignedSpelling_head?_ne .minus
    simp [notMinus]
  · exact absurd sign noPlus
  · simp [signByte]

theorem unsigned_of_spelling {numeral : Numeral} (wireForm : numeral.WireForm) :
    (if numeral.negative = true then numeral.spelling.drop 1 else numeral.spelling) =
      numeral.unsignedSpelling := by
  have noPlus := wireForm.1
  unfold Numeral.spelling Numeral.signSpelling Numeral.negative
  rcases sign : numeral.sign with _ | _ | _
  · simp
  · exact absurd sign noPlus
  · simp

theorem readInteger_spelling (numeral : Numeral) :
    readInteger 0 numeral.unsignedSpelling =
      if digitsValue numeral.integer < 2 ^ 63 then
        .ok ((digitsValue numeral.integer : Int),
          Numeral.fractionSpelling numeral.fraction)
      else .error .overflow := by
  have stops : ∀ byte tail, Numeral.fractionSpelling numeral.fraction = byte :: tail →
      byte = '.'.toUInt8 := by
    intro byte tail shape
    cases fraction : numeral.fraction with
    | none => simp [fraction, Numeral.fractionSpelling] at shape
    | some digits =>
        rw [fraction, Numeral.fractionSpelling, List.cons.injEq] at shape
        exact shape.1.symm
  have whole := readInteger_digits 0 numeral.integer (by norm_num) stops
  rw [Nat.zero_mul, Nat.zero_add, Nat.cast_zero] at whole
  rw [Numeral.unsignedSpelling, whole]

/-- Scaling the integer part and adding the fraction. -/
theorem scale_and_add {Value : Type} (whole part : Nat) (next : Int → Except Fault Value) :
    (int64 ((whole : Int) * decimalScale) >>= fun scaled =>
        int64 (scaled + (part : Int)) >>= next) =
      if whole * 10 ^ 8 + part < 2 ^ 63 then
        next ((whole * 10 ^ 8 + part : Nat) : Int)
      else .error .overflow := by
  have scaleCast : (whole : Int) * decimalScale = ((whole * 10 ^ 8 : Nat) : Int) := by
    rw [decimalScale]
    push_cast
    norm_num
  have sumCast : ((whole * 10 ^ 8 : Nat) : Int) + (part : Int) =
      ((whole * 10 ^ 8 + part : Nat) : Int) := by
    rw [Nat.cast_add]
  rw [scaleCast, int64_natCast]
  by_cases scaledFits : whole * 10 ^ 8 < 2 ^ 63
  · rw [if_pos scaledFits, ok_bind, sumCast, int64_natCast]
    by_cases fits : whole * 10 ^ 8 + part < 2 ^ 63
    · rw [if_pos fits, if_pos fits, ok_bind]
    · rw [if_neg fits, if_neg fits, error_bind]
  · have exceeds : ¬ whole * 10 ^ 8 + part < 2 ^ 63 := by
      intro fits
      exact scaledFits (lt_of_le_of_lt (Nat.le_add_right _ _) fits)
    rw [if_neg scaledFits, error_bind, if_neg exceeds]

/-- Scaling, adding and applying the sign. -/
theorem finishDecimal_eq {numeral : Numeral} {whole part magnitude : Nat}
    (sumEq : whole * 10 ^ 8 + part = magnitude) (unitsEq : numeral.units 8 = magnitude) :
    finishDecimal numeral.negative whole part =
      if magnitude < 2 ^ 63 then .ok (Int64.ofInt (numeral.signedUnits 8))
      else .error .overflow := by
  rw [finishDecimal, scale_and_add, sumEq]
  by_cases fits : magnitude < 2 ^ 63
  · have negatedFits : FitsInt64 (-(magnitude : Int)) := by
      unfold FitsInt64
      omega
    rw [if_pos fits, if_pos fits, Numeral.signedUnits, unitsEq]
    by_cases negative : numeral.negative = true
    · rw [if_pos negative, if_pos negative, int64, checkInt64_of_fits negatedFits,
        ok_bind]
      simp only [pure, Except.pure]
    · rw [if_neg negative, if_neg negative, pure_bind]
      simp only [pure, Except.pure]
  · rw [if_neg fits, if_neg fits]

/-- The unchecked parser on a numeral of the wire form. -/
theorem parseDecimal_spelling {numeral : Numeral} (wireForm : numeral.WireForm) :
    parseDecimal numeral.spelling =
      if numeral.units 8 < 2 ^ 63 then .ok (Int64.ofInt (numeral.signedUnits 8))
      else .error .overflow := by
  obtain ⟨magnitude, unitsEq⟩ : ∃ magnitude, numeral.units 8 = magnitude := ⟨_, rfl⟩
  have unitsSum : digitsValue numeral.integer * 10 ^ 8 +
      leadingPlaces 8 (numeral.fraction.getD []) = magnitude := by
    rw [← unitsEq, Numeral.units, Numeral.fractionDigits]
  have finished := finishDecimal_eq unitsSum unitsEq
  rw [parseDecimal]
  simp only [head?_spelling wireForm, Bool.decide_eq_true, unsigned_of_spelling wireForm]
  rw [readInteger_spelling, unitsEq]
  by_cases wholeFits : digitsValue numeral.integer < 2 ^ 63
  · rw [if_pos wholeFits, ← finished]
    generalize finishDecimal numeral.negative = finish
    rw [ok_bind]
    dsimp only
    rw [parseFraction_spelling, ok_bind]
  · have exceeds : ¬ magnitude < 2 ^ 63 := by
      have grows : digitsValue numeral.integer ≤ digitsValue numeral.integer * 10 ^ 8 :=
        Nat.le_mul_of_pos_right _ (Nat.pow_pos (by omega))
      omega
    rw [if_neg wholeFits, error_bind, if_neg exceeds]

/-- Truncation toward zero of the scaled value of a numeral. -/
def truncated (numeral : Numeral) : Int :=
  truncate (numeral.value * 10 ^ 8)

/-- The parser yields the truncated scaled value, without an overflow. -/
def ParsesExactly (parse : Bytes → Except Fault Int64) (numeral : Numeral) : Prop :=
  ∃ result, parse numeral.spelling = .ok result ∧ result.toInt = truncated numeral

theorem toInt_signedUnits {numeral : Numeral} (inRange : InRange numeral) :
    (Int64.ofInt (numeral.signedUnits 8)).toInt = truncated numeral := by
  have unitsLt := (inRange_iff numeral).mp inRange
  rw [truncated, truncate_value_scaled]
  apply toInt_ofInt
  unfold FitsInt64 Numeral.signedUnits
  split <;> omega

theorem parseDecimal_yieldsIf {numeral : Numeral} (wireForm : numeral.WireForm) :
    YieldsIf (InRange numeral) (Int64.ofInt (numeral.signedUnits 8))
      (parseDecimal numeral.spelling) := by
  rw [parseDecimal_spelling wireForm]
  exact (YieldsIf.check _ _).congr (inRange_iff numeral).symm

theorem parseDecimal_exactly_iff {numeral : Numeral} (wireForm : numeral.WireForm) :
    ParsesExactly parseDecimal numeral ↔ InRange numeral :=
  (parseDecimal_yieldsIf wireForm).exists_iff toInt_signedUnits

theorem parseDecimal_overflow_iff {numeral : Numeral} (wireForm : numeral.WireForm) :
    parseDecimal numeral.spelling = .error .overflow ↔ ¬ InRange numeral := by
  rw [inRange_iff, parseDecimal_spelling wireForm]
  split <;> simp_all

/-- The listed fields of an object are strings holding wire-form numerals. -/
def HoldsNumerals (element : Json) (numerals : String → Numeral)
    (keys : List String) : Prop :=
  ∀ key ∈ keys, element.FirstField key (.string (numerals key).spelling) ∧
    (numerals key).WireForm

/-- A decimal field yields its number when the numeral is in range. -/
theorem priceField_yieldsIf (simdjson : Simdjson.Library) {element : Json}
    {numerals : String → Numeral} {keys : List String}
    (holds : HoldsNumerals element numerals keys) (key : String) (member : key ∈ keys) :
    YieldsIf (InRange (numerals key)) (Int64.ofInt ((numerals key).signedUnits 8))
      (priceField simdjson element key) := by
  obtain ⟨found, wireForm⟩ := holds key member
  rw [priceField, (stringField_eq_ok_iff simdjson).mpr found, ok_bind]
  exact parseDecimal_yieldsIf wireForm

def klineDecimalKeys : List String :=
  ["o", "h", "l", "c", "v", "q", "V", "Q"]

/-- A kline document whose decimal fields hold the given numerals. -/
structure KlineDocument (document : Json) (numerals : String → Numeral) where
  docKline : Json
  kline_eq : document.FirstField "k" docKline
  decimals : HoldsNumerals docKline numerals klineDecimalKeys
  texts : ∀ key ∈ ["s", "i"], ∃ text, docKline.FirstField key (.string text)
  numbers : ∀ key ∈ ["t", "T", "f", "L", "n"],
    ∃ number content, docKline.FirstField key content ∧ content.IsUnsigned number
  flag : ∃ closed, docKline.FirstField "x" (.bool closed)

/-- The decimal fields of a kline are the truncated values of the numerals. -/
structure KlineTruncates (numerals : String → Numeral) (kline : Kline) : Prop where
  openPrice : kline.openPrice.toInt = truncated (numerals "o")
  highPrice : kline.highPrice.toInt = truncated (numerals "h")
  lowPrice : kline.lowPrice.toInt = truncated (numerals "l")
  closePrice : kline.closePrice.toInt = truncated (numerals "c")
  volume : kline.volume.toInt = truncated (numerals "v")
  quoteAssetVolume : kline.quoteAssetVolume.toInt = truncated (numerals "q")
  takerBuyBaseAssetVolume :
    kline.takerBuyBaseAssetVolume.toInt = truncated (numerals "V")
  takerBuyQuoteAssetVolume :
    kline.takerBuyQuoteAssetVolume.toInt = truncated (numerals "Q")

theorem parseKline_truncates_iff {simdjson : Simdjson.Library}
    {message : Bytes} {document : Json} {numerals : String → Numeral}
    (parsed : simdjson.parse message = .ok document)
    (shape : KlineDocument document numerals) :
    (∃ kline, parseKline simdjson message = .ok kline ∧ KlineTruncates numerals kline) ↔
      ∀ key ∈ klineDecimalKeys, InRange (numerals key) := by
  have parsedOk : orThrow (simdjson.parse message) = .ok document := by rw [parsed]; rfl
  have klineOk : orThrow (simdjson.field document "k") = .ok shape.docKline :=
    orThrow_eq_ok_iff.mpr (simdjson.field_eq_ok_iff.mpr shape.kline_eq)
  have texts := shape.texts
  have numbers := shape.numbers
  obtain ⟨closed, closedEq⟩ := shape.flag
  simp only [← uint64Field_eq_ok_iff simdjson] at numbers
  simp only [← stringField_eq_ok_iff simdjson] at texts
  rw [← boolField_eq_ok_iff simdjson] at closedEq
  obtain ⟨symbol, symbolEq⟩ := texts "s" (by decide)
  obtain ⟨interval, intervalEq⟩ := texts "i" (by decide)
  obtain ⟨openTime, openTimeEq⟩ := numbers "t" (by decide)
  obtain ⟨closeTime, closeTimeEq⟩ := numbers "T" (by decide)
  obtain ⟨firstId, firstIdEq⟩ := numbers "f" (by decide)
  obtain ⟨lastId, lastIdEq⟩ := numbers "L" (by decide)
  obtain ⟨count, countEq⟩ := numbers "n" (by decide)
  have decimal := priceField_yieldsIf simdjson shape.decimals
  have reads := (YieldsIf.after parsedOk <| .after klineOk <|
    .after symbolEq <| .after intervalEq <|
    .after openTimeEq <| .after closeTimeEq <|
    .after firstIdEq <| .after lastIdEq <|
    (decimal "o" (by decide)).bind <| (decimal "h" (by decide)).bind <|
    (decimal "l" (by decide)).bind <| (decimal "c" (by decide)).bind <|
    (decimal "v" (by decide)).bind <| .after countEq <|
    (decimal "q" (by decide)).bind <| (decimal "V" (by decide)).bind <|
    (decimal "Q" (by decide)).bind <| .after closedEq <| .pure _ :
    YieldsIf _ _ (parseKline simdjson message))
  have conditions : YieldsIf (∀ key ∈ klineDecimalKeys, InRange (numerals key)) _
      (parseKline simdjson message) := reads.congr (by
    simp only [klineDecimalKeys, List.forall_mem_cons, List.not_mem_nil,
      false_implies, implies_true, and_true])
  apply conditions.exists_iff
  intro inRange
  have value {key : String} (member : key ∈ klineDecimalKeys) :=
    toInt_signedUnits (inRange key member)
  constructor <;> exact value (by decide)

def tickerDecimalKeys : List String :=
  ["p", "w", "x", "c", "Q", "b", "B", "a", "A", "o", "h", "l", "v", "q"]

/-- A ticker document whose decimal fields hold the given numerals. -/
structure TickerDocument {Double : Type} (stod : Bytes → Except Fault Double)
    (document : Json) (numerals : String → Numeral) : Prop where
  decimals : HoldsNumerals document numerals tickerDecimalKeys
  text : ∃ symbol, document.FirstField "s" (.string symbol)
  percent : ∃ text number, document.FirstField "P" (.string text) ∧ stod text = .ok number
  numbers : ∀ key ∈ ["O", "C", "F", "L", "n", "E"],
    ∃ number content, document.FirstField key content ∧ content.IsUnsigned number

/-- The decimal fields of a ticker are the truncated values of the numerals. -/
structure TickerTruncates {Double : Type} (numerals : String → Numeral)
    (ticker : Ticker Double) : Prop where
  priceChange : ticker.priceChange.toInt = truncated (numerals "p")
  weightedAveragePrice : ticker.weightedAveragePrice.toInt = truncated (numerals "w")
  previousClosePrice : ticker.previousClosePrice.toInt = truncated (numerals "x")
  lastPrice : ticker.lastPrice.toInt = truncated (numerals "c")
  lastQuantity : ticker.lastQuantity.toInt = truncated (numerals "Q")
  bidPrice : ticker.bidPrice.toInt = truncated (numerals "b")
  bidQuantity : ticker.bidQuantity.toInt = truncated (numerals "B")
  askPrice : ticker.askPrice.toInt = truncated (numerals "a")
  askQuantity : ticker.askQuantity.toInt = truncated (numerals "A")
  openPrice : ticker.openPrice.toInt = truncated (numerals "o")
  highPrice : ticker.highPrice.toInt = truncated (numerals "h")
  lowPrice : ticker.lowPrice.toInt = truncated (numerals "l")
  volume : ticker.volume.toInt = truncated (numerals "v")
  quoteAssetVolume : ticker.quoteAssetVolume.toInt = truncated (numerals "q")

theorem parseTicker_truncates_iff {simdjson : Simdjson.Library}
    {Double : Type} {stod : Bytes → Except Fault Double}
    {message : Bytes} {document : Json} {numerals : String → Numeral}
    (parsed : simdjson.parse message = .ok document)
    (shape : TickerDocument stod document numerals) :
    (∃ ticker, parseTicker simdjson stod message = .ok ticker ∧
        TickerTruncates numerals ticker) ↔
      ∀ key ∈ tickerDecimalKeys, InRange (numerals key) := by
  have parsedOk : orThrow (simdjson.parse message) = .ok document := by rw [parsed]; rfl
  have numbers := shape.numbers
  obtain ⟨symbol, symbolEq⟩ := shape.text
  obtain ⟨text, percent, textEq, percentEq⟩ := shape.percent
  simp only [← uint64Field_eq_ok_iff simdjson] at numbers
  rw [← stringField_eq_ok_iff simdjson] at symbolEq textEq
  obtain ⟨openTime, openTimeEq⟩ := numbers "O" (by decide)
  obtain ⟨closeTime, closeTimeEq⟩ := numbers "C" (by decide)
  obtain ⟨firstId, firstIdEq⟩ := numbers "F" (by decide)
  obtain ⟨lastId, lastIdEq⟩ := numbers "L" (by decide)
  obtain ⟨count, countEq⟩ := numbers "n" (by decide)
  obtain ⟨eventTime, eventTimeEq⟩ := numbers "E" (by decide)
  have decimal := priceField_yieldsIf simdjson shape.decimals
  have reads := (YieldsIf.after parsedOk <| .after symbolEq <|
    (decimal "p" (by decide)).bind <| .after textEq <| .after percentEq <|
    (decimal "w" (by decide)).bind <| (decimal "x" (by decide)).bind <|
    (decimal "c" (by decide)).bind <| (decimal "Q" (by decide)).bind <|
    (decimal "b" (by decide)).bind <| (decimal "B" (by decide)).bind <|
    (decimal "a" (by decide)).bind <| (decimal "A" (by decide)).bind <|
    (decimal "o" (by decide)).bind <| (decimal "h" (by decide)).bind <|
    (decimal "l" (by decide)).bind <| (decimal "v" (by decide)).bind <|
    (decimal "q" (by decide)).bind <|
    .after openTimeEq <| .after closeTimeEq <| .after firstIdEq <|
    .after lastIdEq <| .after countEq <| .after firstIdEq <| .after lastIdEq <|
    .after eventTimeEq <| .pure _ : YieldsIf _ _ (parseTicker simdjson stod message))
  have conditions : YieldsIf (∀ key ∈ tickerDecimalKeys, InRange (numerals key)) _
      (parseTicker simdjson stod message) := reads.congr (by
    simp only [tickerDecimalKeys, List.forall_mem_cons, List.not_mem_nil,
      false_implies, implies_true, and_true])
  apply conditions.exists_iff
  intro inRange
  have value {key : String} (member : key ∈ tickerDecimalKeys) :=
    toInt_signedUnits (inRange key member)
  constructor <;> exact value (by decide)

end BinanceMarketDataParser

open BinanceMarketDataParser

/-- Both copies of the parser compute prices, quantities, klines and tickers
exactly when every numeral they read is in range; out of range, the
accumulation overflows. -/
theorem decimalParsers_exact_iff_inRange (numeral : Numeral) :
    (numeral.WireForm →
      ∀ parser ∈ [BinanceMarketDataParser.parsePrice,
          BinanceMarketDataParser.parseQuantity,
          BinanceDataParser.parsePrice, BinanceDataParser.parseQuantity],
        (ParsesExactly parser numeral ↔ InRange numeral) ∧
        (parser numeral.spelling = .error .overflow ↔ ¬ InRange numeral)) ∧
    (∀ (simdjson : Simdjson.Library) message document numerals,
      simdjson.parse message = .ok document → ∀ _shape : KlineDocument document numerals,
      ∀ parser ∈ [BinanceMarketDataParser.parseKline, BinanceDataParser.parseKline],
        (∃ kline, parser simdjson message = .ok kline ∧ KlineTruncates numerals kline) ↔
          ∀ key ∈ klineDecimalKeys, InRange (numerals key)) ∧
    (∀ (Double : Type) (stod : Bytes → Except Fault Double) (simdjson : Simdjson.Library) message
        document numerals, simdjson.parse message = .ok document →
      TickerDocument stod document numerals →
      ∀ parser ∈ [BinanceMarketDataParser.parseTicker simdjson stod,
          BinanceDataParser.parseTicker simdjson stod],
        (∃ ticker, parser message = .ok ticker ∧ TickerTruncates numerals ticker) ↔
          ∀ key ∈ tickerDecimalKeys, InRange (numerals key)) := by
  refine ⟨?_, ?_, ?_⟩
  · intro wireForm parser member
    have same : parser = BinanceMarketDataParser.parseDecimal := by
      simp only [List.mem_cons, List.not_mem_nil, or_false] at member
      rcases member with rfl | rfl | rfl | rfl <;> rfl
    rw [same]
    exact ⟨parseDecimal_exactly_iff wireForm, parseDecimal_overflow_iff wireForm⟩
  · intro simdjson message document numerals parsed shape parser member
    have same : parser = BinanceMarketDataParser.parseKline := by
      simp only [List.mem_cons, List.not_mem_nil, or_false] at member
      rcases member with rfl | rfl <;> rfl
    rw [same]
    exact parseKline_truncates_iff parsed shape
  · intro Double stod simdjson message document numerals parsed shape parser member
    have same : parser = BinanceMarketDataParser.parseTicker simdjson stod := by
      simp only [List.mem_cons, List.not_mem_nil, or_false] at member
      rcases member with rfl | rfl <;> rfl
    rw [same]
    exact parseTicker_truncates_iff parsed shape

/-- A volume of a hundred billion units. -/
def hundredBillion : Numeral where
  sign := none
  integer := 1 :: List.replicate 11 0
  fraction := none
  complete := by decide

theorem parseQuantity_hundredBillion_overflows :
    hundredBillion.WireForm ∧ hundredBillion.spelling = ascii "100000000000" ∧
      parseQuantity (ascii "100000000000") = .error .overflow ∧
      ¬ ParsesExactly parseQuantity hundredBillion := by
  have wireForm : hundredBillion.WireForm := by decide
  have spelled : hundredBillion.spelling = ascii "100000000000" := by decide
  have unitsEq : hundredBillion.units 8 = 10000000000000000000 := by decide
  have overflows : parseQuantity hundredBillion.spelling = .error .overflow := by
    rw [parseQuantity, parseDecimal_spelling wireForm, unitsEq, if_neg (by norm_num)]
  refine ⟨wireForm, spelled, spelled ▸ overflows, ?_⟩
  rintro ⟨result, parsed, -⟩
  rw [overflows] at parsed
  cases parsed

end ExchangeConnectivity
