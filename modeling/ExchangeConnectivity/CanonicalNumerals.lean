import ExchangeConnectivity.DecimalNumerals
import Mathlib.Data.List.DropRight

/-!
# Canonical numerals

Among the numerals of one value there is exactly one without plus sign,
superfluous leading zeros, trailing fractional zeros or a minus sign on zero.
This file prints natural numbers and scaled integers in that form and proves
that the form is determined by the value.
-/

namespace DecimalNumerals

/-- The digits of a natural number, most significant first; zero is the
single digit `0`. -/
def decimalDigits (number : Nat) : List Digit :=
  if number = 0 then [0]
  else ((Nat.digits 10 number).map (Fin.ofNat 10)).reverse

def decimalBytes (number : Nat) : List UInt8 :=
  digitBytes (decimalDigits number)

/-- An integer with a minus sign if it is negative. -/
def signedBytes (number : Int) : List UInt8 :=
  (if number < 0 then [signByte .minus] else []) ++ decimalBytes number.natAbs

/-- Left padding with zeros to a minimal width. -/
def padDigits (width : Nat) (digits : List Digit) : List Digit :=
  List.replicate (width - digits.length) 0 ++ digits

private theorem digitsValue_reverse (numbers : List Nat)
    (bounded : ∀ number ∈ numbers, number < 10) :
    digitsValue (numbers.map (Fin.ofNat 10)).reverse = Nat.ofDigits 10 numbers := by
  induction numbers with
  | nil => rfl
  | cons number numbers ih =>
      have headLt := bounded number (by simp)
      have tail := ih fun member memberMem => bounded member (by simp [memberMem])
      rw [List.map_cons, List.reverse_cons, digitsValue_concat, tail,
        Nat.ofDigits_cons]
      simp only [Fin.val_ofNat, Nat.mod_eq_of_lt headLt]
      ring

@[simp]
theorem digitsValue_decimalDigits (number : Nat) :
    digitsValue (decimalDigits number) = number := by
  unfold decimalDigits
  split
  · next zero => simp [zero, digitsValue]
  · rw [digitsValue_reverse _ fun digit member =>
      Nat.digits_lt_base (by omega) member]
    exact Nat.ofDigits_digits 10 number

theorem decimalDigits_ne_nil (number : Nat) : decimalDigits number ≠ [] := by
  unfold decimalDigits
  split
  · simp
  · next nonzero =>
      simpa using Nat.digits_ne_nil_iff_ne_zero.mpr nonzero

theorem decimalDigits_head?_zero {number : Nat}
    (leading : (decimalDigits number).head? = some 0) :
    decimalDigits number = [0] := by
  unfold decimalDigits at leading ⊢
  split
  · rfl
  · next nonzero =>
      rw [if_neg nonzero, List.head?_reverse, List.getLast?_map,
        List.getLast?_eq_getLast_of_ne_nil
          (Nat.digits_ne_nil_iff_ne_zero.mpr nonzero)] at leading
      have lastLt := Nat.digits_lt_base (b := 10) (by omega)
        (List.getLast_mem (Nat.digits_ne_nil_iff_ne_zero.mpr nonzero))
      have lastNonzero := Nat.getLast_digit_ne_zero 10 nonzero
      have zero := congrArg (Option.map Fin.val) leading
      simp only [Option.map_some, Fin.val_ofNat, Nat.mod_eq_of_lt lastLt,
        Fin.val_zero, Option.some.injEq] at zero
      exact absurd zero lastNonzero

theorem decimalDigits_length_le {number width : Nat} (positive : 0 < width)
    (bound : number < 10 ^ width) : (decimalDigits number).length ≤ width := by
  unfold decimalDigits
  split
  · exact positive
  · simpa using (Nat.digits_length_le_iff (by omega) number).mpr bound

@[simp]
theorem digitsValue_padDigits (width : Nat) (digits : List Digit) :
    digitsValue (padDigits width digits) = digitsValue digits := by
  have zeros : digitsValue (List.replicate (width - digits.length) 0) = 0 :=
    (digitsValue_eq_zero_iff _).mpr fun digit member =>
      List.eq_of_mem_replicate member
  rw [padDigits, digitsValue_append, zeros]
  simp

theorem padDigits_length {width : Nat} {digits : List Digit}
    (fits : digits.length ≤ width) : (padDigits width digits).length = width := by
  simp only [padDigits, List.length_append, List.length_replicate]
  omega

/-- The fraction digits without trailing zeros. -/
def dropTrailingZeros (digits : List Digit) : List Digit :=
  digits.rdropWhile (· = 0)

theorem dropTrailingZeros_getLast? (digits : List Digit) :
    (dropTrailingZeros digits).getLast? ≠ some 0 := by
  induction digits using List.reverseRecOn with
  | nil => simp [dropTrailingZeros]
  | append_singleton digits digit ih =>
      unfold dropTrailingZeros at ih ⊢
      rw [List.rdropWhile_concat]
      by_cases zero : digit = 0
      · simpa [zero] using ih
      · simp [zero]

theorem fraction_dropTrailingZeros (digits : List Digit) :
    (digitsValue (dropTrailingZeros digits) : ℚ) /
        10 ^ (dropTrailingZeros digits).length =
      digitsValue digits / 10 ^ digits.length := by
  induction digits using List.reverseRecOn with
  | nil => rfl
  | append_singleton digits digit ih =>
      unfold dropTrailingZeros at ih ⊢
      rw [List.rdropWhile_concat]
      by_cases zero : digit = 0
      · rw [if_pos (by simpa using zero), ih, digitsValue_concat, zero,
          List.length_append, List.length_singleton, pow_succ]
        push_cast
        field_simp
        simp
      · rw [if_neg (by simpa using zero)]

theorem dropTrailingZeros_ne_nil {digits : List Digit}
    (nonzero : digitsValue digits ≠ 0) : dropTrailingZeros digits ≠ [] := by
  intro empty
  have fraction := fraction_dropTrailingZeros digits
  rw [empty] at fraction
  simp only [digitsValue_nil, Nat.cast_zero, zero_div] at fraction
  rcases div_eq_zero_iff.mp fraction.symm with value | scale
  · exact nonzero (by exact_mod_cast value)
  · exact absurd scale (by positivity)

theorem rdropWhile_append {Item : Type*} (drop : Item → Bool) (first : List Item)
    {second : List Item} (kept : second.rdropWhile drop ≠ []) :
    (first ++ second).rdropWhile drop = first ++ second.rdropWhile drop := by
  unfold List.rdropWhile at kept ⊢
  rw [List.reverse_append, List.dropWhile_append, if_neg (by simpa using kept),
    List.reverse_append, List.reverse_reverse]

theorem digitBytes_dropTrailingZeros (digits : List Digit) :
    (digitBytes digits).rdropWhile (· = '0'.toUInt8) =
      digitBytes (dropTrailingZeros digits) := by
  induction digits using List.reverseRecOn with
  | nil => rfl
  | append_singleton digits digit ih =>
      have zeroIff : digitByte digit = '0'.toUInt8 ↔ digit = 0 :=
        digitByte_injective.eq_iff' rfl
      unfold dropTrailingZeros at ih ⊢
      rw [digitBytes_append, digitBytes_cons, digitBytes_nil, List.rdropWhile_concat,
        List.rdropWhile_concat]
      by_cases zero : digit = 0
      · rw [if_pos (by simpa using zeroIff.mpr zero), if_pos (by simpa using zero), ih]
      · rw [if_neg (by simpa [zeroIff] using zero), if_neg (by simpa using zero),
          digitBytes_append, digitBytes_cons, digitBytes_nil]

namespace Numeral

structure IsCanonical (numeral : Numeral) : Prop where
  no_plus : numeral.sign ≠ some .plus
  integer_ne_nil : numeral.integer ≠ []
  no_leading_zero : numeral.integer.head? = some 0 → numeral.integer = [0]
  no_trailing_zero : ∀ digits, numeral.fraction = some digits →
    digits.getLast? ≠ some 0
  minus_only_negative : numeral.sign = some .minus → numeral.value < 0

end Numeral

private theorem pow_pred_length_le {digits : List Digit}
    (nonempty : digits ≠ []) (normal : digits.head? = some 0 → digits = [0])
    (positive : 0 < digitsValue digits) :
    10 ^ (digits.length - 1) ≤ digitsValue digits := by
  cases digits with
  | nil => exact absurd rfl nonempty
  | cons digit digits =>
      by_cases zero : digit = 0
      · have single := normal (by simp [zero])
        rw [single] at positive
        simp [digitsValue] at positive
      · have digitPos : 0 < digit.val := Nat.pos_of_ne_zero fun valueZero =>
          zero (Fin.ext valueZero)
        rw [digitsValue_cons, List.length_cons, Nat.add_sub_cancel]
        nlinarith [Nat.one_le_pow digits.length 10 (by omega)]

/-- Without superfluous leading zeros a digit string is determined by its
value. -/
theorem eq_of_digitsValue_eq {first second : List Digit}
    (firstNonempty : first ≠ []) (secondNonempty : second ≠ [])
    (firstNormal : first.head? = some 0 → first = [0])
    (secondNormal : second.head? = some 0 → second = [0])
    (valueEq : digitsValue first = digitsValue second) : first = second := by
  have single {digits : List Digit} (nonempty : digits ≠ [])
      (normal : digits.head? = some 0 → digits = [0])
      (zero : digitsValue digits = 0) : digits = [0] := by
    cases digits with
    | nil => exact absurd rfl nonempty
    | cons digit digits =>
        have allZero := (digitsValue_eq_zero_iff _).mp zero
        exact normal (by simp [allZero digit (by simp)])
  rcases Nat.eq_zero_or_pos (digitsValue first) with zero | positive
  · rw [single firstNonempty firstNormal zero,
      single secondNonempty secondNormal (valueEq ▸ zero)]
  · have firstLow := pow_pred_length_le firstNonempty firstNormal positive
    have secondLow := pow_pred_length_le secondNonempty secondNormal
      (valueEq ▸ positive)
    have firstHigh := digitsValue_lt first
    have secondHigh := digitsValue_lt second
    have firstLength := List.length_pos_iff.mpr firstNonempty
    have secondLength := List.length_pos_iff.mpr secondNonempty
    have firstLt : first.length - 1 < second.length :=
      (Nat.pow_lt_pow_iff_right (by omega)).mp
        (lt_of_le_of_lt firstLow (valueEq ▸ secondHigh))
    have secondLt : second.length - 1 < first.length :=
      (Nat.pow_lt_pow_iff_right (by omega)).mp
        (lt_of_le_of_lt secondLow (valueEq ▸ firstHigh))
    exact digitsValue_injective_of_length_eq (by omega) valueEq

private theorem length_le_of_fraction_eq {first second : List Digit}
    (normal : second.getLast? ≠ some 0)
    (fractionEq : (digitsValue first : ℚ) / 10 ^ first.length =
      digitsValue second / 10 ^ second.length) :
    second.length ≤ first.length := by
  by_contra longer
  obtain ⟨extra, lengthEq⟩ : ∃ extra, second.length = first.length + (extra + 1) :=
    ⟨second.length - first.length - 1, by omega⟩
  have scaled : digitsValue second = digitsValue first * 10 ^ (extra + 1) := by
    rw [lengthEq, pow_add] at fractionEq
    field_simp at fractionEq
    exact_mod_cast fractionEq.symm
  rcases List.eq_nil_or_concat second with empty | ⟨digits, digit, rfl⟩
  · simp [empty] at lengthEq
  · rw [List.concat_eq_append, digitsValue_concat, pow_succ, ← mul_assoc] at scaled
    have digitLt := digit.isLt
    have digitZero : digit = 0 := Fin.ext (by rw [Fin.val_zero]; omega)
    exact normal (by simp [digitZero])

/-- Without trailing zeros a fraction is determined by its value. -/
theorem eq_of_fraction_eq {first second : List Digit}
    (firstNormal : first.getLast? ≠ some 0)
    (secondNormal : second.getLast? ≠ some 0)
    (fractionEq : (digitsValue first : ℚ) / 10 ^ first.length =
      digitsValue second / 10 ^ second.length) : first = second := by
  have lengthEq : first.length = second.length :=
    le_antisymm (length_le_of_fraction_eq firstNormal fractionEq.symm)
      (length_le_of_fraction_eq secondNormal fractionEq)
  apply digitsValue_injective_of_length_eq lengthEq
  rw [lengthEq] at fractionEq
  field_simp at fractionEq
  exact_mod_cast fractionEq

private theorem fraction_lt_one (digits : List Digit) :
    (digitsValue digits : ℚ) / 10 ^ digits.length < 1 := by
  rw [div_lt_one (by positivity)]
  exact_mod_cast digitsValue_lt digits

private theorem fraction_eq_of_fractionDigits_eq {first second : Numeral}
    (digitsEq : first.fractionDigits = second.fractionDigits) :
    first.fraction = second.fraction := by
  have firstComplete := first.complete
  have secondComplete := second.complete
  unfold Numeral.fractionDigits at digitsEq
  cases firstFraction : first.fraction <;>
    cases secondFraction : second.fraction <;>
    simp_all

/-- Integer parts agree as soon as the magnitudes do, since the fractions are
below one. -/
private theorem integerValue_eq_of_magnitude_eq {first second : Numeral}
    (magnitudeEq : first.magnitude = second.magnitude) :
    digitsValue first.integer = digitsValue second.integer := by
  have firstNonneg :
      (0 : ℚ) ≤ digitsValue first.fractionDigits / 10 ^ first.fractionDigits.length := by
    positivity
  have secondNonneg :
      (0 : ℚ) ≤ digitsValue second.fractionDigits / 10 ^ second.fractionDigits.length := by
    positivity
  have firstLt := fraction_lt_one first.fractionDigits
  have secondLt := fraction_lt_one second.fractionDigits
  unfold Numeral.magnitude at magnitudeEq
  have firstBelow : (digitsValue first.integer : ℚ) < digitsValue second.integer + 1 := by
    linarith
  have secondBelow : (digitsValue second.integer : ℚ) < digitsValue first.integer + 1 := by
    linarith
  have firstLe : digitsValue first.integer < digitsValue second.integer + 1 := by
    exact_mod_cast firstBelow
  have secondLe : digitsValue second.integer < digitsValue first.integer + 1 := by
    exact_mod_cast secondBelow
  omega

namespace Numeral

theorem IsCanonical.sign_eq {numeral : Numeral} (canonical : numeral.IsCanonical) :
    numeral.sign = if numeral.value < 0 then some .minus else none := by
  have nonneg := numeral.magnitude_nonneg
  rcases sign : numeral.sign with _ | _ | _
  · rw [if_neg]
    simp only [value, negative, sign, reduceCtorEq, decide_false,
      Bool.false_eq_true, if_false]
    linarith
  · exact absurd sign canonical.no_plus
  · rw [if_pos (canonical.minus_only_negative sign)]

theorem IsCanonical.fractionDigits_getLast? {numeral : Numeral}
    (canonical : numeral.IsCanonical) :
    numeral.fractionDigits.getLast? ≠ some 0 := by
  unfold fractionDigits
  cases fraction : numeral.fraction with
  | none => simp
  | some digits => exact canonical.no_trailing_zero digits fraction

/-- A canonical numeral is determined by the rational it denotes. -/
theorem IsCanonical.eq_of_value_eq {first second : Numeral}
    (firstCanonical : first.IsCanonical) (secondCanonical : second.IsCanonical)
    (valueEq : first.value = second.value) : first = second := by
  have signEq : first.sign = second.sign := by
    rw [firstCanonical.sign_eq, secondCanonical.sign_eq, valueEq]
  have magnitudeEq : first.magnitude = second.magnitude := by
    unfold value negative at valueEq
    rw [signEq] at valueEq
    split at valueEq
    · exact neg_injective valueEq
    · exact valueEq
  have integerEq : first.integer = second.integer :=
    eq_of_digitsValue_eq firstCanonical.integer_ne_nil
      secondCanonical.integer_ne_nil firstCanonical.no_leading_zero
      secondCanonical.no_leading_zero
      (integerValue_eq_of_magnitude_eq magnitudeEq)
  have fractionDigitsEq : first.fractionDigits = second.fractionDigits := by
    apply eq_of_fraction_eq firstCanonical.fractionDigits_getLast?
      secondCanonical.fractionDigits_getLast?
    unfold magnitude at magnitudeEq
    rw [integerEq] at magnitudeEq
    exact add_left_cancel magnitudeEq
  have fractionEq := fraction_eq_of_fractionDigits_eq fractionDigitsEq
  cases first
  cases second
  simp_all

end Numeral

/-- The fractional digits of `part` units of `10 ^ (-places)`, absent when
there are none. -/
def fractionOfUnits (places part : Nat) : Option (List Digit) :=
  if part = 0 then none
  else some (dropTrailingZeros (padDigits places (decimalDigits part)))

/-- The canonical numeral of a signed number of units of `10 ^ (-places)`. -/
def canonicalOfUnits (places : Nat) (units : Int) : Numeral where
  sign := if units < 0 then some .minus else none
  integer := decimalDigits (units.natAbs / 10 ^ places)
  fraction := fractionOfUnits places (units.natAbs % 10 ^ places)
  complete := by
    unfold fractionOfUnits
    split
    · exact decimalDigits_ne_nil _
    · next nonzero =>
        exact dropTrailingZeros_ne_nil (by simpa using nonzero)

private theorem fractionOfUnits_value {places part : Nat}
    (bound : part < 10 ^ places) :
    (digitsValue ((fractionOfUnits places part).getD []) : ℚ) /
        10 ^ ((fractionOfUnits places part).getD []).length =
      part / 10 ^ places := by
  unfold fractionOfUnits
  split
  · next zero => simp [zero]
  · next nonzero =>
      have placesPos : 0 < places := by
        by_contra notPos
        have placesZero : places = 0 := by omega
        rw [placesZero] at bound
        omega
      have length := padDigits_length (decimalDigits_length_le placesPos bound)
      rw [Option.getD_some, fraction_dropTrailingZeros, length,
        digitsValue_padDigits, digitsValue_decimalDigits]

theorem canonicalOfUnits_magnitude (places : Nat) (units : Int) :
    (canonicalOfUnits places units).magnitude = units.natAbs / 10 ^ places := by
  have positive : 0 < 10 ^ places := by positivity
  have fraction := fractionOfUnits_value
    (Nat.mod_lt units.natAbs positive)
  have division := Nat.div_add_mod units.natAbs (10 ^ places)
  unfold Numeral.magnitude Numeral.fractionDigits
  simp only [canonicalOfUnits, digitsValue_decimalDigits]
  rw [fraction]
  field_simp
  rw [mul_comm]
  exact_mod_cast division

theorem canonicalOfUnits_value (places : Nat) (units : Int) :
    (canonicalOfUnits places units).value = units / 10 ^ places := by
  unfold Numeral.value
  rw [canonicalOfUnits_magnitude]
  by_cases below : units < 0
  · have natAbs : (units.natAbs : ℚ) = -units := by
      rw [Nat.cast_natAbs, abs_of_neg below]
      push_cast
      rfl
    simp [canonicalOfUnits, Numeral.negative, below, natAbs, neg_div]
  · have natAbs : (units.natAbs : ℚ) = units := by
      rw [Nat.cast_natAbs, abs_of_nonneg (by omega)]
    simp [canonicalOfUnits, Numeral.negative, below, natAbs]

theorem canonicalOfUnits_precise (places : Nat) (units : Int) :
    (canonicalOfUnits places units).Precise places := by
  apply Numeral.precise_of_integral
  rw [canonicalOfUnits_magnitude, div_mul_cancel₀ _ (by positivity)]

theorem canonicalOfUnits_signedUnits (places : Nat) (units : Int) :
    (canonicalOfUnits places units).signedUnits places = units := by
  have scaled := Numeral.value_scaled_of_precise (canonicalOfUnits_precise places units)
  rw [canonicalOfUnits_value, div_mul_cancel₀ _ (by positivity)] at scaled
  exact_mod_cast scaled.symm

theorem canonicalOfUnits_isCanonical (places : Nat) (units : Int) :
    (canonicalOfUnits places units).IsCanonical where
  no_plus := by
    simp only [canonicalOfUnits]
    split <;> simp
  integer_ne_nil := decimalDigits_ne_nil _
  no_leading_zero := decimalDigits_head?_zero
  no_trailing_zero := by
    intro digits fraction
    simp only [canonicalOfUnits, fractionOfUnits] at fraction
    split at fraction
    · cases fraction
    · cases fraction
      exact dropTrailingZeros_getLast? _
  minus_only_negative := by
    intro minus
    have below : units < 0 := by
      by_contra notBelow
      simp [canonicalOfUnits, notBelow] at minus
    have cast : (units : ℚ) < 0 := by exact_mod_cast below
    rw [canonicalOfUnits_value]
    exact div_neg_of_neg_of_pos cast (by positivity)

end DecimalNumerals
