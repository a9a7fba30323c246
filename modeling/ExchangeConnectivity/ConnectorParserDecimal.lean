import ExchangeConnectivity.ConnectorParser
import ExchangeConnectivity.DecimalNumerals

/-!
# The validating decimal parser is exact

`Connector.parseDecimal` accepts precisely the numerals whose value is a
64-bit number of hundred-millionths, returns that number, and computes no
intermediate result outside the unsigned 64-bit range on any input.
-/

namespace ExchangeConnectivity

open ByteStrings DecimalNumerals FailingComputations FixedWidth

namespace Connector

theorem decimalLimit_div (negative : Bool) :
    decimalLimit negative / decimalScale = 92233720368 := by
  cases negative <;> rfl

theorem isDigitByte_iff (character : UInt8) :
    IsDigitByte character ↔
      ¬ (character < '0'.toUInt8 ∨ character > '9'.toUInt8) := by
  simp only [IsDigitByte, gt_iff_lt, UInt8.lt_iff_toNat_lt,
    show ('0'.toUInt8).toNat = 48 from rfl, show ('9'.toUInt8).toNat = 57 from rfl]
  omega

theorem scanCharacter_point (limit : Nat) (scan : DecimalScan) :
    scanCharacter limit scan pointByte =
      if scan.fractionalPartStarted then
        .error (.invalidArgument "Invalid decimal value")
      else .ok { scan with fractionalPartStarted := true } :=
  rfl

theorem scanCharacter_other (limit : Nat) (scan : DecimalScan)
    {character : UInt8} (notPoint : character ≠ pointByte)
    (notDigit : ¬ IsDigitByte character) :
    scanCharacter limit scan character =
      .error (.invalidArgument "Invalid decimal digit") := by
  rw [isDigitByte_iff, not_not] at notDigit
  change character ≠ '.'.toUInt8 at notPoint
  unfold scanCharacter
  rw [if_neg notPoint, if_pos notDigit]
  rfl

/-- At a digit the iteration is one of the two digit branches. -/
private theorem scanCharacter_digit (limit : Nat) (scan : DecimalScan)
    (digit : Digit) :
    scanCharacter limit scan (digitByte digit) =
      if ¬ scan.fractionalPartStarted then do
        let room ← uint64Sub (limit / decimalScale) digit.val
        if scan.integerPart > room / 10 then
          throw (.outOfRange "Decimal value is out of range")
        else
          let integerPart ← uint64 (scan.integerPart * 10 + digit.val)
          pure { scan with integerPart, hasIntegerDigit := true }
      else if scan.fractionalScale < decimalScale then do
        let fractionalPart ← uint64 (scan.fractionalPart * 10 + digit.val)
        let fractionalScale ← uint64 (scan.fractionalScale * 10)
        pure { scan with
          fractionalPart, fractionalScale, hasFractionalDigit := true }
      else if digit.val ≠ 0 then
        throw (.outOfRange "Decimal value has excessive precision")
      else
        pure { scan with hasFractionalDigit := true } := by
  have isDigit := (isDigitByte_iff _).mp (digitByte_isDigitByte digit)
  have notPoint : digitByte digit ≠ '.'.toUInt8 := digitByte_ne_pointByte digit
  have value : (digitByte digit).toNat - '0'.toNat = digit.val := by
    rw [digitByte_toNat]
    exact Nat.add_sub_cancel_left 48 digit.val
  unfold scanCharacter
  rw [if_neg notPoint, if_neg isDigit, value]

theorem scanCharacter_integerDigit (negative : Bool) {scan : DecimalScan}
    (before : scan.fractionalPartStarted = false) (digit : Digit) :
    scanCharacter (decimalLimit negative) scan (digitByte digit) =
      if 92233720368 < scan.integerPart * 10 + digit.val then
        .error (.outOfRange "Decimal value is out of range")
      else .ok { scan with
        integerPart := scan.integerPart * 10 + digit.val
        hasIntegerDigit := true } := by
  have digitLt := digit.isLt
  rw [scanCharacter_digit, if_pos (by simp [before]), decimalLimit_div,
    uint64Sub, checkUInt64Sub_of_le (by omega), ok_bind]
  by_cases exceeds : 92233720368 < scan.integerPart * 10 + digit.val
  · rw [if_pos (by omega), if_pos exceeds]
    rfl
  · have fits : FitsUInt64 (scan.integerPart * 10 + digit.val) := by
      unfold FitsUInt64
      omega
    rw [if_neg (by omega), if_neg exceeds, uint64, checkUInt64_of_fits fits]
    rfl

theorem scanCharacter_keptDigit (limit : Nat) {scan : DecimalScan}
    (started : scan.fractionalPartStarted = true) {places : Nat}
    (room : places < 8) (scaleEq : scan.fractionalScale = 10 ^ places)
    (partLt : scan.fractionalPart < 10 ^ places) (digit : Digit) :
    scanCharacter limit scan (digitByte digit) =
      .ok { scan with
        fractionalPart := scan.fractionalPart * 10 + digit.val
        fractionalScale := 10 ^ (places + 1)
        hasFractionalDigit := true } := by
  have digitLt := digit.isLt
  have scaleLt : 10 ^ places < 10 ^ 8 := Nat.pow_lt_pow_right (by omega) room
  have partFits : FitsUInt64 (scan.fractionalPart * 10 + digit.val) := by
    unfold FitsUInt64
    omega
  have scaleFits : FitsUInt64 (scan.fractionalScale * 10) := by
    unfold FitsUInt64
    omega
  rw [scanCharacter_digit, if_neg (by simp [started]),
    if_pos (by rw [scaleEq]; exact scaleLt), uint64, checkUInt64_of_fits partFits,
    ok_bind, checkUInt64_of_fits scaleFits, ok_bind, scaleEq, pow_succ]
  rfl

theorem scanCharacter_excessDigit (limit : Nat) {scan : DecimalScan}
    (started : scan.fractionalPartStarted = true)
    (scaleEq : scan.fractionalScale = 10 ^ 8) (digit : Digit) :
    scanCharacter limit scan (digitByte digit) =
      if digit ≠ 0 then
        .error (.outOfRange "Decimal value has excessive precision")
      else .ok { scan with hasFractionalDigit := true } := by
  rw [scanCharacter_digit, if_neg (by simp [started]),
    if_neg (by rw [scaleEq]; exact Nat.lt_irrefl _)]
  by_cases zero : digit = 0
  · rw [if_neg (by simp [zero]), if_neg (by simp [zero])]
    rfl
  · have nonzero : digit.val ≠ 0 := fun valueZero => zero (Fin.ext valueZero)
    rw [if_pos nonzero, if_pos zero]
    rfl

/-- What bounds the accumulators between iterations. -/
structure InBounds (scan : DecimalScan) : Prop where
  integerPart_le : scan.integerPart ≤ 92233720368
  fraction : ∃ places ≤ 8,
    scan.fractionalScale = 10 ^ places ∧ scan.fractionalPart < 10 ^ places

theorem inBounds_initial : InBounds {} where
  integerPart_le := Nat.zero_le _
  fraction := ⟨0, Nat.zero_le _, rfl, Nat.one_pos⟩

theorem scanCharacter_inBounds (negative : Bool) (scan : DecimalScan)
    (character : UInt8) (bounds : InBounds scan) :
    Avoids .overflow InBounds
      (scanCharacter (decimalLimit negative) scan character) := by
  obtain ⟨integerPart_le, places, placesLe, scaleEq, partLt⟩ := bounds
  by_cases point : character = pointByte
  · rw [point, scanCharacter_point]
    split
    · simp [Avoids]
    · exact ⟨integerPart_le, places, placesLe, scaleEq, partLt⟩
  by_cases isDigit : IsDigitByte character
  · obtain ⟨digit, rfl⟩ := exists_digitByte_eq isDigit
    cases started : scan.fractionalPartStarted with
    | false =>
        rw [scanCharacter_integerDigit negative started]
        split
        · simp [Avoids]
        · next inRange =>
            exact ⟨Nat.le_of_not_lt inRange, places, placesLe, scaleEq, partLt⟩
    | true =>
        rcases Nat.lt_or_eq_of_le placesLe with room | full
        · have digitLt := digit.isLt
          rw [scanCharacter_keptDigit _ started room scaleEq partLt]
          refine ⟨integerPart_le, places + 1, by omega, rfl, ?_⟩
          simp only [pow_succ]
          omega
        · rw [scanCharacter_excessDigit _ started (by rw [scaleEq, full])]
          split
          · simp [Avoids]
          · exact ⟨integerPart_le, places, placesLe, scaleEq, partLt⟩
  · rw [scanCharacter_other _ _ point isDigit]
    simp [Avoids]

theorem decimalScale_div {places : Nat} (placesLe : places ≤ 8) :
    decimalScale / 10 ^ places = 10 ^ (8 - places) :=
  Nat.pow_div placesLe (Nat.zero_lt_succ 9)

theorem rescaled_lt {part places : Nat} (placesLe : places ≤ 8)
    (partLt : part < 10 ^ places) : part * 10 ^ (8 - places) < 10 ^ 8 := by
  calc
    part * 10 ^ (8 - places) < 10 ^ places * 10 ^ (8 - places) :=
      Nat.mul_lt_mul_of_pos_right partLt (Nat.pow_pos (by omega))
    _ = 10 ^ 8 := by
      rw [← pow_add, Nat.add_sub_cancel' placesLe]

/-- The number of hundred-millionths the accumulators stand for. -/
def scannedUnits (scan : DecimalScan) (places : Nat) : Nat :=
  scan.integerPart * 10 ^ 8 + scan.fractionalPart * 10 ^ (8 - places)

/-- The price of a number of hundred-millionths, if the sign leaves room for it. -/
def priceOfUnits (negative : Bool) (units : Nat) : Except Fault Price :=
  if decimalLimit negative < units then
    .error (.outOfRange "Decimal value is out of range")
  else .ok (Int64.ofInt (if negative then -(units : Int) else units))

/-- Negation of a magnitude up to `2 ^ 63`, the smallest 64-bit number
included. -/
private theorem negated_result (result : Nat) :
    (if result = maxValue + 1 then pure Int64.minValue
      else pure (Int64.ofInt (-result)) : Except Fault Price) =
      .ok (Int64.ofInt (-result)) := by
  split
  · next smallest =>
      rw [smallest]
      rfl
  · rfl

theorem finishDecimal_eq (negative : Bool) {scan : DecimalScan} {places : Nat}
    (integerPart_le : scan.integerPart ≤ 92233720368) (placesLe : places ≤ 8)
    (scaleEq : scan.fractionalScale = 10 ^ places)
    (partLt : scan.fractionalPart < 10 ^ places)
    (someDigit : scan.hasIntegerDigit = true ∨ scan.hasFractionalDigit = true)
    (complete : scan.fractionalPartStarted = true →
      scan.hasFractionalDigit = true) :
    finishDecimal negative (decimalLimit negative) scan =
      priceOfUnits negative (scannedUnits scan places) := by
  have partUnitsLt := rescaled_lt placesLe partLt
  have limitLow : 9223372036800000000 ≤ decimalLimit negative := by
    cases negative <;> decide
  have limitHigh : decimalLimit negative ≤ 9223372036854775808 := by
    cases negative <;> decide
  have scaleValue : decimalScale = 10 ^ 8 := rfl
  have partFits : FitsUInt64 (scan.fractionalPart * 10 ^ (8 - places)) := by
    unfold FitsUInt64
    omega
  have integerFits : FitsUInt64 (scan.integerPart * 10 ^ 8) := by
    unfold FitsUInt64
    omega
  unfold finishDecimal priceOfUnits
  rw [if_neg (by rintro ⟨noInteger, noFraction⟩; simp_all),
    if_neg (by rintro ⟨started, noFraction⟩; simp_all), scaleEq,
    decimalScale_div placesLe, uint64, checkUInt64_of_fits partFits, ok_bind,
    decimalLimit_div, if_neg (by omega), scaleValue,
    checkUInt64_of_fits integerFits, ok_bind, uint64Sub,
    checkUInt64Sub_of_le (by omega), ok_bind]
  by_cases exceeds : decimalLimit negative < scannedUnits scan places
  · rw [if_pos (by unfold scannedUnits at exceeds; omega), if_pos exceeds]
    rfl
  · have sumFits : FitsUInt64
        (scan.integerPart * 10 ^ 8 + scan.fractionalPart * 10 ^ (8 - places)) := by
      unfold scannedUnits at exceeds
      unfold FitsUInt64
      omega
    rw [if_neg (by unfold scannedUnits at exceeds; omega), if_neg exceeds,
      checkUInt64_of_fits sumFits, ok_bind, negated_result]
    cases negative with
    | false =>
        simp only [Bool.false_eq_true, if_false]
        rfl
    | true =>
        simp only [if_true]
        rfl

theorem finishDecimal_avoids (negative : Bool) {scan : DecimalScan}
    (bounds : InBounds scan) :
    Avoids .overflow (fun _ => True)
      (finishDecimal negative (decimalLimit negative) scan) := by
  obtain ⟨integerPart_le, places, placesLe, scaleEq, partLt⟩ := bounds
  by_cases noDigit : ¬ scan.hasIntegerDigit ∧ ¬ scan.hasFractionalDigit
  · rw [finishDecimal, if_pos noDigit]
    exact fun equal => by cases equal
  by_cases bare : scan.fractionalPartStarted ∧ ¬ scan.hasFractionalDigit
  · rw [finishDecimal, if_neg noDigit, if_pos bare]
    exact fun equal => by cases equal
  have someDigit : scan.hasIntegerDigit = true ∨ scan.hasFractionalDigit = true := by
    by_contra neither
    exact noDigit (not_or.mp neither)
  have complete : scan.fractionalPartStarted = true →
      scan.hasFractionalDigit = true := by
    intro started
    by_contra missing
    exact bare ⟨started, missing⟩
  rw [finishDecimal_eq negative integerPart_le placesLe scaleEq partLt someDigit
    complete, priceOfUnits]
  split
  · exact fun equal => by cases equal
  · trivial

theorem parseMagnitude_avoids (negative : Bool) (value : Bytes) :
    Avoids .overflow (fun _ => True) (parseMagnitude negative value) := by
  unfold parseMagnitude
  split
  · exact fun equal => by cases equal
  · exact (Avoids.foldlM (scanCharacter_inBounds negative) value
      inBounds_initial).bind fun scan bounds => finishDecimal_avoids negative bounds

/-- No string makes an intermediate unsigned computation wrap. -/
theorem parseDecimal_avoids (value : Bytes) :
    Avoids .overflow (fun _ => True) (parseDecimal value) := by
  cases value with
  | nil => exact fun equal => by cases equal
  | cons front rest =>
      rw [parseDecimal]
      split
      · exact parseMagnitude_avoids true rest
      · split
        · exact parseMagnitude_avoids false rest
        · exact parseMagnitude_avoids false (front :: rest)

theorem foldlM_integerDigits (negative : Bool) (digits : List Digit)
    (scan : DecimalScan) (before : scan.fractionalPartStarted = false)
    (inRange : scan.integerPart ≤ 92233720368) :
    (digitBytes digits).foldlM (scanCharacter (decimalLimit negative)) scan =
      if 92233720368 <
          scan.integerPart * 10 ^ digits.length + digitsValue digits then
        .error (.outOfRange "Decimal value is out of range")
      else .ok { scan with
        integerPart := scan.integerPart * 10 ^ digits.length + digitsValue digits
        hasIntegerDigit := scan.hasIntegerDigit || !digits.isEmpty } := by
  induction digits generalizing scan with
  | nil =>
      rw [if_neg (by simpa using inRange)]
      simp [pure, Except.pure]
  | cons digit digits ih =>
      have shifted := shift_digitsValue scan.integerPart digit digits
      have grows : scan.integerPart * 10 + digit.val ≤
          (scan.integerPart * 10 + digit.val) * 10 ^ digits.length :=
        Nat.le_mul_of_pos_right _ (Nat.pow_pos (by omega))
      rw [digitBytes_cons, List.foldlM_cons, scanCharacter_integerDigit negative before]
      by_cases exceeds : 92233720368 < scan.integerPart * 10 + digit.val
      · rw [if_pos exceeds, if_pos (by omega), error_bind]
      · rw [if_neg exceeds, ok_bind,
          ih { scan with
            integerPart := scan.integerPart * 10 + digit.val
            hasIntegerDigit := true } before (Nat.le_of_not_lt exceeds)]
        simp only [shifted, List.isEmpty_cons, Bool.not_false, Bool.or_true,
          Bool.true_or]

theorem foldlM_fractionDigits (limit : Nat) (digits : List Digit)
    (scan : DecimalScan) (started : scan.fractionalPartStarted = true)
    (places : Nat) (placesLe : places ≤ 8)
    (scaleEq : scan.fractionalScale = 10 ^ places)
    (partLt : scan.fractionalPart < 10 ^ places) :
    (digitBytes digits).foldlM (scanCharacter limit) scan =
      if ∀ digit ∈ digits.drop (8 - places), digit = 0 then
        .ok { scan with
          fractionalPart :=
            scan.fractionalPart * 10 ^ (digits.take (8 - places)).length +
              digitsValue (digits.take (8 - places))
          fractionalScale := 10 ^ (places + (digits.take (8 - places)).length)
          hasFractionalDigit := scan.hasFractionalDigit || !digits.isEmpty }
      else .error (.outOfRange "Decimal value has excessive precision") := by
  induction digits generalizing scan places with
  | nil =>
      rw [if_pos (by simp)]
      simp [pure, Except.pure, ← scaleEq]
  | cons digit digits ih =>
      have digitLt := digit.isLt
      rw [digitBytes_cons, List.foldlM_cons]
      rcases Nat.lt_or_eq_of_le placesLe with room | rfl
      · have roomEq : 8 - places = 8 - (places + 1) + 1 := by omega
        have nextLt : scan.fractionalPart * 10 + digit.val < 10 ^ (places + 1) := by
          rw [pow_succ]
          omega
        rw [scanCharacter_keptDigit limit started room scaleEq partLt, ok_bind,
          ih { scan with
            fractionalPart := scan.fractionalPart * 10 + digit.val
            fractionalScale := 10 ^ (places + 1)
            hasFractionalDigit := true } started (places + 1) room rfl nextLt,
          roomEq]
        have placesEq (kept : List Digit) :
            places + 1 + kept.length = places + (digit :: kept).length := by
          rw [List.length_cons]
          omega
        simp only [List.drop_succ_cons, List.take_succ_cons, shift_digitsValue, placesEq,
          List.isEmpty_cons, Bool.not_false, Bool.or_true, Bool.true_or]
      · rw [scanCharacter_excessDigit limit started scaleEq]
        by_cases zero : digit = 0
        · rw [if_neg (by simp [zero]), ok_bind,
            ih { scan with hasFractionalDigit := true } started 8 le_rfl scaleEq
              partLt]
          simp [zero]
        · rw [if_pos zero, error_bind, if_neg (by simp [zero])]

/-- The loop state after the digits of an in-range integer part. -/
def afterInteger (integer : List Digit) : DecimalScan where
  integerPart := digitsValue integer
  hasIntegerDigit := !integer.isEmpty

/-- The loop state after the fraction digits, without excess precision. -/
def afterFraction (integer fraction : List Digit) : DecimalScan where
  integerPart := digitsValue integer
  fractionalPart := digitsValue (fraction.take 8)
  fractionalScale := 10 ^ (fraction.take 8).length
  hasIntegerDigit := !integer.isEmpty
  hasFractionalDigit := !fraction.isEmpty
  fractionalPartStarted := true

theorem foldlM_initial (negative : Bool) (integer : List Digit) :
    (digitBytes integer).foldlM (scanCharacter (decimalLimit negative)) {} =
      if 92233720368 < digitsValue integer then
        .error (.outOfRange "Decimal value is out of range")
      else .ok (afterInteger integer) := by
  have run := foldlM_integerDigits negative integer {} rfl (Nat.zero_le _)
  simpa only [afterInteger, Nat.zero_mul, Nat.zero_add, Bool.false_or] using run

theorem foldlM_fraction (limit : Nat) (integer fraction : List Digit) :
    (pointByte :: digitBytes fraction).foldlM (scanCharacter limit)
        (afterInteger integer) =
      if ∀ digit ∈ fraction.drop 8, digit = 0 then
        .ok (afterFraction integer fraction)
      else .error (.outOfRange "Decimal value has excessive precision") := by
  have run := foldlM_fractionDigits limit fraction
    { afterInteger integer with fractionalPartStarted := true }
    rfl 0 (Nat.zero_le _) rfl Nat.one_pos
  rw [List.foldlM_cons, scanCharacter_point]
  simpa only [afterInteger, afterFraction, Bool.false_eq_true, if_false, ok_bind,
    Nat.zero_mul, Nat.zero_add, Bool.false_or, Nat.sub_zero] using run

/-- After an integer part in range and no point, the price is that many units. -/
theorem finishDecimal_afterInteger (negative : Bool) {integer : List Digit}
    (inRange : digitsValue integer ≤ 92233720368) (nonempty : integer ≠ []) :
    finishDecimal negative (decimalLimit negative) (afterInteger integer) =
      priceOfUnits negative (digitsValue integer * 10 ^ 8) := by
  have units : scannedUnits (afterInteger integer) 0 = digitsValue integer * 10 ^ 8 := by
    simp [scannedUnits, afterInteger]
  have someDigit : (afterInteger integer).hasIntegerDigit = true := by
    simpa [afterInteger, List.isEmpty_iff] using nonempty
  rw [← units]
  exact finishDecimal_eq negative inRange (Nat.zero_le _) rfl Nat.one_pos
    (Or.inl someDigit) (by simp [afterInteger])

/-- After a fraction, its first eight places are added. -/
theorem finishDecimal_afterFraction (negative : Bool) {integer fraction : List Digit}
    (inRange : digitsValue integer ≤ 92233720368) (nonempty : fraction ≠ []) :
    finishDecimal negative (decimalLimit negative) (afterFraction integer fraction) =
      priceOfUnits negative (digitsValue integer * 10 ^ 8 + leadingPlaces 8 fraction) := by
  have units : scannedUnits (afterFraction integer fraction) (fraction.take 8).length =
      digitsValue integer * 10 ^ 8 + leadingPlaces 8 fraction := by
    simp only [scannedUnits, afterFraction, leadingPlaces]
  have fractionDigit : (afterFraction integer fraction).hasFractionalDigit = true := by
    simpa [afterFraction, List.isEmpty_iff] using nonempty
  rw [← units]
  exact finishDecimal_eq negative inRange (List.length_take_le 8 fraction) rfl
    (digitsValue_lt _) (Or.inr fractionDigit) (fun _ => fractionDigit)

/-- What `parseDecimal` makes of a numeral after its sign: an error for an
integer part, a precision or a total beyond the limit, else the signed number
of hundred-millionths. -/
theorem parseMagnitude_eq (negative : Bool) (numeral : Numeral) :
    parseMagnitude negative numeral.unsignedSpelling =
      if 92233720368 < digitsValue numeral.integer then
        .error (.outOfRange "Decimal value is out of range")
      else if ¬ numeral.Precise 8 then
        .error (.outOfRange "Decimal value has excessive precision")
      else priceOfUnits negative (numeral.units 8) := by
  have complete := numeral.complete
  unfold parseMagnitude
  rw [if_neg numeral.unsignedSpelling_ne_nil, Numeral.unsignedSpelling,
    List.foldlM_append, foldlM_initial]
  by_cases exceeds : 92233720368 < digitsValue numeral.integer
  · rw [if_pos exceeds, if_pos exceeds]
    rfl
  have inRange := Nat.le_of_not_lt exceeds
  rw [if_neg exceeds, if_neg exceeds, ok_bind]
  cases fraction : numeral.fraction with
  | none =>
      rw [fraction, Option.getD_none] at complete
      have precise : numeral.Precise 8 := by
        simp [Numeral.Precise, Numeral.fractionDigits, fraction]
      have units : digitsValue numeral.integer * 10 ^ 8 = numeral.units 8 := by
        simp [Numeral.units, leadingPlaces, Numeral.fractionDigits, fraction]
      rw [if_neg (not_not.mpr precise), Numeral.fractionSpelling, List.foldlM_nil,
        ← units]
      exact finishDecimal_afterInteger negative inRange complete
  | some digits =>
      rw [fraction, Option.getD_some] at complete
      have preciseIff : numeral.Precise 8 ↔ ∀ digit ∈ digits.drop 8, digit = 0 := by
        simp [Numeral.Precise, Numeral.fractionDigits, fraction]
      have units : digitsValue numeral.integer * 10 ^ 8 + leadingPlaces 8 digits =
          numeral.units 8 := by
        simp only [Numeral.units, Numeral.fractionDigits, fraction, Option.getD_some]
      rw [Numeral.fractionSpelling, foldlM_fraction]
      by_cases precise : numeral.Precise 8
      · rw [if_pos (preciseIff.mp precise), if_neg (not_not.mpr precise), ok_bind,
          ← units]
        exact finishDecimal_afterFraction negative inRange complete
      · rw [if_neg (fun allZero => precise (preciseIff.mpr allZero)), if_pos precise]
        rfl

theorem parseDecimal_minus (rest : Bytes) :
    parseDecimal (signByte .minus :: rest) = parseMagnitude true rest := by
  rw [parseDecimal]
  exact if_pos rfl

theorem parseDecimal_plus (rest : Bytes) :
    parseDecimal (signByte .plus :: rest) = parseMagnitude false rest := by
  have notMinus : signByte .plus ≠ '-'.toUInt8 := by decide
  rw [parseDecimal, if_neg notMinus]
  exact if_pos rfl

theorem parseDecimal_unsigned {front : UInt8} (rest : Bytes)
    (unsigned : ∀ sign, front ≠ signByte sign) :
    parseDecimal (front :: rest) = parseMagnitude false (front :: rest) := by
  have notMinus : front ≠ '-'.toUInt8 := unsigned .minus
  have notPlus : front ≠ '+'.toUInt8 := unsigned .plus
  rw [parseDecimal, if_neg notMinus, if_neg notPlus]

theorem parseDecimal_spelling (numeral : Numeral) :
    parseDecimal numeral.spelling =
      parseMagnitude numeral.negative numeral.unsignedSpelling := by
  unfold Numeral.spelling Numeral.signSpelling Numeral.negative
  rcases numeral.sign with _ | _ | _
  · obtain ⟨front, rest, shape⟩ :=
      List.exists_cons_of_ne_nil numeral.unsignedSpelling_ne_nil
    have unsigned (sign : Sign) : front ≠ signByte sign := by
      rintro rfl
      exact numeral.unsignedSpelling_head?_ne sign (by rw [shape, List.head?_cons])
    simp only [Option.toList_none, List.map_nil, List.nil_append, shape,
      reduceCtorEq, decide_false]
    exact parseDecimal_unsigned rest unsigned
  · simp only [Option.toList_some, List.map_cons, List.map_nil,
      List.singleton_append, Option.some.injEq, reduceCtorEq, decide_false]
    exact parseDecimal_plus _
  · simp only [Option.toList_some, List.map_cons, List.map_nil,
      List.singleton_append, decide_true]
    exact parseDecimal_minus _

/-- A successful iteration reads the first point or a digit. -/
theorem scanCharacter_ok {limit : Nat} {scan next : DecimalScan} {character : UInt8}
    (accepted : scanCharacter limit scan character = .ok next) :
    (character = pointByte ∧ scan.fractionalPartStarted = false ∧
        next.fractionalPartStarted = true) ∨
      (IsDigitByte character ∧
        next.fractionalPartStarted = scan.fractionalPartStarted) := by
  by_cases point : character = pointByte
  · rw [point, scanCharacter_point] at accepted
    split at accepted
    · cases accepted
    · next notStarted =>
        cases accepted
        exact Or.inl ⟨point, by simpa using notStarted, rfl⟩
  by_cases isDigit : IsDigitByte character
  · refine Or.inr ⟨isDigit, ?_⟩
    obtain ⟨digit, rfl⟩ := exists_digitByte_eq isDigit
    rw [scanCharacter_digit] at accepted
    split at accepted
    · obtain ⟨room, -, accepted⟩ := bind_eq_ok_iff.mp accepted
      split at accepted
      · cases accepted
      · obtain ⟨integerPart, -, accepted⟩ := bind_eq_ok_iff.mp accepted
        cases accepted
        rfl
    split at accepted
    · obtain ⟨fractionalPart, -, accepted⟩ := bind_eq_ok_iff.mp accepted
      obtain ⟨fractionalScale, -, accepted⟩ := bind_eq_ok_iff.mp accepted
      cases accepted
      rfl
    split at accepted
    · cases accepted
    · cases accepted
      rfl
  · rw [scanCharacter_other limit scan point isDigit] at accepted
    cases accepted

theorem foldlM_ok_started {limit : Nat} {bytes : Bytes} {scan final : DecimalScan}
    (started : scan.fractionalPartStarted = true)
    (accepted : bytes.foldlM (scanCharacter limit) scan = .ok final) :
    ∃ digits, bytes = digitBytes digits := by
  induction bytes generalizing scan with
  | nil => exact ⟨[], rfl⟩
  | cons byte bytes ih =>
      rw [List.foldlM_cons] at accepted
      obtain ⟨next, step, rest⟩ := bind_eq_ok_iff.mp accepted
      rcases scanCharacter_ok step with ⟨-, notStarted, -⟩ | ⟨isDigit, same⟩
      · simp [started] at notStarted
      · obtain ⟨digit, rfl⟩ := exists_digitByte_eq isDigit
        obtain ⟨digits, rfl⟩ := ih (same.trans started) rest
        exact ⟨digit :: digits, rfl⟩

theorem foldlM_ok {limit : Nat} {bytes : Bytes} {scan final : DecimalScan}
    (before : scan.fractionalPartStarted = false)
    (accepted : bytes.foldlM (scanCharacter limit) scan = .ok final) :
    ∃ integer fraction,
      bytes = digitBytes integer ++ Numeral.fractionSpelling fraction := by
  induction bytes generalizing scan with
  | nil => exact ⟨[], none, rfl⟩
  | cons byte bytes ih =>
      rw [List.foldlM_cons] at accepted
      obtain ⟨next, step, rest⟩ := bind_eq_ok_iff.mp accepted
      rcases scanCharacter_ok step with ⟨rfl, -, started⟩ | ⟨isDigit, same⟩
      · obtain ⟨digits, rfl⟩ := foldlM_ok_started started rest
        exact ⟨[], some digits, rfl⟩
      · obtain ⟨digit, rfl⟩ := exists_digitByte_eq isDigit
        obtain ⟨integer, fraction, rfl⟩ := ih (same.trans before) rest
        exact ⟨digit :: integer, fraction, rfl⟩

/-- A point must be followed by a digit. -/
theorem parseMagnitude_barePoint (negative : Bool) (integer : List Digit) (price : Price) :
    parseMagnitude negative (digitBytes integer ++ [pointByte]) ≠ .ok price := by
  have fractionRun := foldlM_fraction (decimalLimit negative) integer []
  rw [digitBytes_nil, if_pos (by simp)] at fractionRun
  unfold parseMagnitude
  rw [if_neg (by simp), List.foldlM_append, foldlM_initial]
  split
  · exact fun equal => by cases equal
  · rw [ok_bind, fractionRun, ok_bind]
    unfold finishDecimal
    split
    · exact fun equal => by cases equal
    · rw [if_pos (by simp [afterFraction])]
      exact fun equal => by cases equal

theorem parseMagnitude_ok {negative : Bool} {value : Bytes} {price : Price}
    (accepted : parseMagnitude negative value = .ok price) (sign : Option Sign) :
    ∃ numeral : Numeral, numeral.sign = sign ∧ value = numeral.unsignedSpelling := by
  by_cases empty : value = []
  · rw [parseMagnitude, if_pos empty] at accepted
    cases accepted
  have run := accepted
  rw [parseMagnitude, if_neg empty] at run
  obtain ⟨scan, loop, -⟩ := bind_eq_ok_iff.mp run
  obtain ⟨integer, fraction, rfl⟩ := foldlM_ok rfl loop
  by_cases complete : fraction.getD integer ≠ []
  · exact ⟨⟨sign, integer, fraction, complete⟩, rfl, rfl⟩
  · rw [not_not] at complete
    cases fraction with
    | none =>
        rw [Option.getD_none] at complete
        rw [complete] at empty
        exact absurd rfl empty
    | some digits =>
        rw [Option.getD_some] at complete
        rw [complete] at accepted
        exact absurd accepted (parseMagnitude_barePoint negative integer price)

theorem parseDecimal_ok {value : Bytes} {price : Price}
    (accepted : parseDecimal value = .ok price) :
    ∃ numeral : Numeral, value = numeral.spelling := by
  cases value with
  | nil => cases accepted
  | cons front rest =>
      rw [parseDecimal] at accepted
      split at accepted
      · next minus =>
          obtain ⟨numeral, signEq, rfl⟩ := parseMagnitude_ok accepted (some .minus)
          exact ⟨numeral, by rw [Numeral.spelling, signEq, minus]; rfl⟩
      · split at accepted
        · next plus =>
            obtain ⟨numeral, signEq, rfl⟩ := parseMagnitude_ok accepted (some .plus)
            exact ⟨numeral, by rw [Numeral.spelling, signEq, plus]; rfl⟩
        · obtain ⟨numeral, signEq, shape⟩ := parseMagnitude_ok accepted none
          exact ⟨numeral, by rw [Numeral.spelling, signEq, shape]; rfl⟩

/-- The value of a numeral is a 64-bit number of hundred-millionths. -/
def Representable (numeral : Numeral) : Prop :=
  -2 ^ 63 ≤ numeral.value * 10 ^ 8 ∧ numeral.value * 10 ^ 8 ≤ 2 ^ 63 - 1

private theorem cast_bounds_iff (units : Int) :
    (-2 ^ 63 ≤ (units : ℚ) ∧ (units : ℚ) ≤ 2 ^ 63 - 1) ↔ FitsInt64 units := by
  have lower : -2 ^ 63 ≤ (units : ℚ) ↔ -2 ^ 63 ≤ units := by
    exact_mod_cast Iff.rfl
  have upper : (units : ℚ) ≤ 2 ^ 63 - 1 ↔ units ≤ 2 ^ 63 - 1 := by
    exact_mod_cast Iff.rfl
  rw [lower, upper, FitsInt64]
  omega

theorem representable_iff_fits {numeral : Numeral} (precise : numeral.Precise 8) :
    Representable numeral ↔ FitsInt64 (numeral.signedUnits 8) := by
  unfold Representable
  rw [Numeral.value_scaled_of_precise precise]
  exact cast_bounds_iff _

theorem fits_signedUnits_iff (numeral : Numeral) :
    FitsInt64 (numeral.signedUnits 8) ↔
      numeral.units 8 ≤ decimalLimit numeral.negative := by
  unfold FitsInt64 Numeral.signedUnits
  cases numeral.negative with
  | false =>
      have limit : decimalLimit false = 2 ^ 63 - 1 := by decide
      rw [limit, if_neg Bool.false_ne_true]
      omega
  | true =>
      have limit : decimalLimit true = 2 ^ 63 := by decide
      rw [limit, if_pos rfl]
      omega

/-- The units of a numeral make a price exactly when they fit. -/
theorem priceOfUnits_eq_ok_iff (numeral : Numeral) (price : Price) :
    priceOfUnits numeral.negative (numeral.units 8) = .ok price ↔
      price.toInt = numeral.signedUnits 8 := by
  have resultEq : Int64.ofInt
      (if numeral.negative then -(numeral.units 8 : Int) else numeral.units 8) =
        Int64.ofInt (numeral.signedUnits 8) := rfl
  rw [priceOfUnits, resultEq]
  constructor
  · intro accepted
    split at accepted
    · cases accepted
    · next inRange =>
        cases accepted
        exact toInt_ofInt ((fits_signedUnits_iff numeral).mpr (Nat.le_of_not_lt inRange))
  · intro priceEq
    have fits : FitsInt64 (numeral.signedUnits 8) := priceEq ▸ fitsInt64_toInt price
    have inRange := (fits_signedUnits_iff numeral).mp fits
    rw [if_neg (Nat.not_lt.mpr inRange), ← priceEq, Int64.ofInt_toInt]

/-- A numeral is read as a price exactly when the price is its number of
hundred-millionths and no nonzero digit is lost. -/
theorem parseDecimal_spelling_eq_ok_iff (numeral : Numeral) (price : Price) :
    parseDecimal numeral.spelling = .ok price ↔
      numeral.Precise 8 ∧ price.toInt = numeral.signedUnits 8 := by
  rw [parseDecimal_spelling, parseMagnitude_eq, ← priceOfUnits_eq_ok_iff]
  constructor
  · intro accepted
    split at accepted
    · cases accepted
    split at accepted
    · cases accepted
    next precise =>
    exact ⟨not_not.mp precise, accepted⟩
  · rintro ⟨precise, accepted⟩
    have fits : FitsInt64 (numeral.signedUnits 8) :=
      (priceOfUnits_eq_ok_iff numeral price).mp accepted ▸ fitsInt64_toInt price
    have inRange := (fits_signedUnits_iff numeral).mp fits
    have wholeLe : digitsValue numeral.integer * 10 ^ 8 ≤ numeral.units 8 :=
      Nat.le_add_right _ _
    have limitHigh : decimalLimit numeral.negative ≤ 9223372036854775808 := by
      cases numeral.negative <;> decide
    rw [if_neg (by omega), if_neg (not_not.mpr precise), accepted]

/-- An accepted numeral has the value of its price. -/
theorem value_of_accepted {numeral : Numeral} {price : Int64}
    (accepted : parseDecimal numeral.spelling = .ok price) :
    (price.toInt : ℚ) = numeral.value * 10 ^ 8 := by
  obtain ⟨precise, priceEq⟩ := (parseDecimal_spelling_eq_ok_iff numeral price).mp accepted
  rw [Numeral.value_scaled_of_precise precise, priceEq]

/-- A string is accepted exactly when it is a numeral without nonzero digits
after the eighth decimal place whose value is representable; the price is then
that value scaled by `10 ^ 8`.  On every other string an exception is thrown,
and on no string does an unsigned intermediate result wrap. -/
theorem parseDecimal_exact (value : Bytes) :
    ((∃ price, parseDecimal value = .ok price) ↔
      ∃ numeral : Numeral, value = numeral.spelling ∧ numeral.Precise 8 ∧
        Representable numeral) ∧
    (∀ price, parseDecimal value = .ok price →
      ∀ numeral : Numeral, value = numeral.spelling →
        (price.toInt : ℚ) = numeral.value * 10 ^ 8) ∧
    parseDecimal value ≠ .error .overflow := by
  refine ⟨⟨?_, ?_⟩, ?_, (parseDecimal_avoids value).ne_error⟩
  · rintro ⟨price, accepted⟩
    obtain ⟨numeral, rfl⟩ := parseDecimal_ok accepted
    obtain ⟨precise, priceEq⟩ :=
      (parseDecimal_spelling_eq_ok_iff numeral price).mp accepted
    refine ⟨numeral, rfl, precise, (representable_iff_fits precise).mpr ?_⟩
    exact priceEq ▸ fitsInt64_toInt price
  · rintro ⟨numeral, rfl, precise, representable⟩
    have fits := (representable_iff_fits precise).mp representable
    exact ⟨Int64.ofInt (numeral.signedUnits 8),
      (parseDecimal_spelling_eq_ok_iff numeral _).mpr ⟨precise, toInt_ofInt fits⟩⟩
  · rintro price accepted numeral rfl
    exact value_of_accepted accepted

example : parseDecimal (ascii "-92233720368.54775808000") = .ok Int64.minValue := by
  decide

end Connector

end ExchangeConnectivity
