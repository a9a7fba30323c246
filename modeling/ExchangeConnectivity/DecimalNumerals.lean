import Mathlib.Data.Nat.Digits.Lemmas
import Mathlib.Data.Rat.Floor
import Mathlib.Tactic.FieldSimp
import Mathlib.Tactic.Linarith
import Mathlib.Tactic.Positivity
import Mathlib.Tactic.Ring

/-!
# Decimal numerals and the rationals they denote

A numeral is an optional sign followed by digits, or by digits, a point and
at least one more digit.  This file gives the spelling of a numeral as bytes,
the rational it denotes, and the split of that rational, scaled by a power of
ten, into whole units and a remainder below one unit.
-/

namespace DecimalNumerals

abbrev Digit := Fin 10

/-- What the literals of `Digit` rest on. -/
instance instNeZeroTen : NeZero 10 :=
  ⟨by decide⟩

/-- The ASCII byte of a digit. -/
def digitByte (digit : Digit) : UInt8 :=
  UInt8.ofNat (48 + digit.val)

def IsDigitByte (byte : UInt8) : Prop :=
  48 ≤ byte.toNat ∧ byte.toNat ≤ 57

instance (byte : UInt8) : Decidable (IsDigitByte byte) :=
  inferInstanceAs (Decidable (_ ∧ _))

@[simp]
theorem digitByte_toNat (digit : Digit) :
    (digitByte digit).toNat = 48 + digit.val := by
  have := digit.isLt
  simp only [digitByte, UInt8.toNat_ofNat']
  omega

theorem digitByte_isDigitByte (digit : Digit) :
    IsDigitByte (digitByte digit) := by
  have := digit.isLt
  simp only [IsDigitByte, digitByte_toNat]
  omega

theorem digitByte_injective : Function.Injective digitByte := by
  intro first second equal
  have values := congrArg UInt8.toNat equal
  simp only [digitByte_toNat] at values
  exact Fin.ext (by omega)

theorem exists_digitByte_eq {byte : UInt8} (isDigit : IsDigitByte byte) :
    ∃ digit, digitByte digit = byte := by
  obtain ⟨low, high⟩ := isDigit
  refine ⟨⟨byte.toNat - 48, by omega⟩, ?_⟩
  apply UInt8.toNat_inj.mp
  simp only [digitByte_toNat]
  omega

/-- A digit string as bytes. -/
def digitBytes (digits : List Digit) : List UInt8 :=
  digits.map digitByte

@[simp]
theorem digitBytes_nil : digitBytes [] = [] :=
  rfl

@[simp]
theorem digitBytes_cons (digit : Digit) (digits : List Digit) :
    digitBytes (digit :: digits) = digitByte digit :: digitBytes digits :=
  rfl

@[simp]
theorem digitBytes_append (first second : List Digit) :
    digitBytes (first ++ second) = digitBytes first ++ digitBytes second :=
  List.map_append

theorem isDigitByte_of_mem_digitBytes {digits : List Digit} {byte : UInt8}
    (member : byte ∈ digitBytes digits) : IsDigitByte byte := by
  obtain ⟨digit, -, rfl⟩ := List.mem_map.mp member
  exact digitByte_isDigitByte digit

/-- The natural number a digit string denotes, most significant digit
first. -/
def digitsValue (digits : List Digit) : Nat :=
  digits.foldl (fun value digit => value * 10 + digit.val) 0

private theorem foldl_digits (start : Nat) (digits : List Digit) :
    digits.foldl (fun value digit => value * 10 + digit.val) start =
      start * 10 ^ digits.length + digitsValue digits := by
  induction digits generalizing start with
  | nil => simp [digitsValue]
  | cons digit digits ih =>
      simp only [digitsValue, List.foldl_cons, List.length_cons] at ih ⊢
      rw [ih (start * 10 + digit.val), ih (0 * 10 + digit.val), pow_succ]
      ring

@[simp]
theorem digitsValue_nil : digitsValue [] = 0 :=
  rfl

theorem digitsValue_cons (digit : Digit) (digits : List Digit) :
    digitsValue (digit :: digits) =
      digit.val * 10 ^ digits.length + digitsValue digits := by
  simpa [digitsValue] using foldl_digits digit.val digits

/-- Reading one more digit into an accumulator before the rest of them. -/
theorem shift_digitsValue (number : Nat) (digit : Digit) (digits : List Digit) :
    (number * 10 + digit.val) * 10 ^ digits.length + digitsValue digits =
      number * 10 ^ (digit :: digits).length + digitsValue (digit :: digits) := by
  rw [digitsValue_cons, List.length_cons, pow_succ]
  ring

theorem digitsValue_append (first second : List Digit) :
    digitsValue (first ++ second) =
      digitsValue first * 10 ^ second.length + digitsValue second := by
  rw [digitsValue, List.foldl_append]
  exact foldl_digits (digitsValue first) second

theorem digitsValue_concat (digits : List Digit) (digit : Digit) :
    digitsValue (digits ++ [digit]) = digitsValue digits * 10 + digit.val := by
  simp [digitsValue_append, digitsValue_cons]

theorem digitsValue_lt (digits : List Digit) :
    digitsValue digits < 10 ^ digits.length := by
  induction digits with
  | nil => simp
  | cons digit digits ih =>
      have digitLt := digit.isLt
      rw [digitsValue_cons, List.length_cons, pow_succ]
      nlinarith

theorem digitsValue_eq_zero_iff (digits : List Digit) :
    digitsValue digits = 0 ↔ ∀ digit ∈ digits, digit = 0 := by
  induction digits with
  | nil => simp
  | cons digit digits ih =>
      have positive : 0 < 10 ^ digits.length := by positivity
      rw [digitsValue_cons, List.forall_mem_cons, ← ih]
      simp only [Nat.add_eq_zero_iff, mul_eq_zero, Nat.pow_eq_zero,
        Fin.ext_iff, Fin.val_zero]
      omega

/-- Digit strings of one length are ordered by their values; in particular
the value determines the string. -/
theorem digitsValue_injective_of_length_eq {first second : List Digit}
    (lengthEq : first.length = second.length)
    (valueEq : digitsValue first = digitsValue second) : first = second := by
  induction first generalizing second with
  | nil => exact (List.eq_nil_of_length_eq_zero lengthEq.symm).symm
  | cons digit digits ih =>
      cases second with
      | nil => simp at lengthEq
      | cons otherDigit otherDigits =>
          have tailLength : digits.length = otherDigits.length := by
            simpa using lengthEq
          have tailLt := digitsValue_lt digits
          have otherTailLt := digitsValue_lt otherDigits
          rw [digitsValue_cons, digitsValue_cons, ← tailLength] at valueEq
          rw [← tailLength] at otherTailLt
          have heads : digit.val = otherDigit.val := by
            rcases Nat.lt_trichotomy digit.val otherDigit.val with
              less | equal | greater
            · nlinarith
            · exact equal
            · nlinarith
          have tails : digitsValue digits = digitsValue otherDigits := by
            rw [heads] at valueEq
            omega
          rw [Fin.ext heads, ih tailLength tails]

inductive Sign
  | plus
  | minus
  deriving DecidableEq

def signByte : Sign → UInt8
  | .plus => '+'.toUInt8
  | .minus => '-'.toUInt8

def pointByte : UInt8 :=
  '.'.toUInt8

theorem digitByte_ne_pointByte (digit : Digit) : digitByte digit ≠ pointByte := by
  revert digit
  decide

theorem digitByte_ne_signByte (digit : Digit) (sign : Sign) :
    digitByte digit ≠ signByte sign := by
  revert digit
  cases sign <;> decide

/-- The bytes numerals are spelled with. -/
def IsNumeralByte (byte : UInt8) : Prop :=
  IsDigitByte byte ∨ byte = pointByte ∨ byte = signByte .plus ∨ byte = signByte .minus

instance (byte : UInt8) : Decidable (IsNumeralByte byte) :=
  inferInstanceAs (Decidable (_ ∨ _))

/-- An optionally signed decimal numeral.  Without a point it has integer
digits; with a point it has fractional digits and may lack integer ones. -/
structure Numeral where
  sign : Option Sign
  integer : List Digit
  fraction : Option (List Digit)
  complete : fraction.getD integer ≠ []

namespace Numeral

def fractionDigits (numeral : Numeral) : List Digit :=
  numeral.fraction.getD []

def signSpelling (sign : Option Sign) : List UInt8 :=
  sign.toList.map signByte

def fractionSpelling : Option (List Digit) → List UInt8
  | none => []
  | some digits => pointByte :: digitBytes digits

/-- The numeral without its sign. -/
def unsignedSpelling (numeral : Numeral) : List UInt8 :=
  digitBytes numeral.integer ++ fractionSpelling numeral.fraction

def spelling (numeral : Numeral) : List UInt8 :=
  signSpelling numeral.sign ++ numeral.unsignedSpelling

def negative (numeral : Numeral) : Bool :=
  numeral.sign = some .minus

def magnitude (numeral : Numeral) : ℚ :=
  digitsValue numeral.integer +
    digitsValue numeral.fractionDigits / 10 ^ numeral.fractionDigits.length

/-- The rational a numeral denotes. -/
def value (numeral : Numeral) : ℚ :=
  if numeral.negative then -numeral.magnitude else numeral.magnitude

/-- The restricted form `-?d+` or `-?d+.d+`, without plus sign and with at
least one integer digit. -/
def WireForm (numeral : Numeral) : Prop :=
  numeral.sign ≠ some .plus ∧ numeral.integer ≠ []

/-- No nonzero digit stands after the given number of decimal places. -/
def Precise (places : Nat) (numeral : Numeral) : Prop :=
  ∀ digit ∈ numeral.fractionDigits.drop places, digit = 0

instance (numeral : Numeral) : Decidable numeral.WireForm :=
  inferInstanceAs (Decidable (_ ∧ _))

instance (places : Nat) (numeral : Numeral) :
    Decidable (numeral.Precise places) :=
  inferInstanceAs (Decidable (∀ _ ∈ _, _))

theorem unsignedSpelling_ne_nil (numeral : Numeral) :
    numeral.unsignedSpelling ≠ [] := by
  intro empty
  have complete := numeral.complete
  cases fraction : numeral.fraction with
  | none => simp_all [unsignedSpelling, fractionSpelling, digitBytes]
  | some digits => simp_all [unsignedSpelling, fractionSpelling]

/-- Without its sign a numeral does not begin with one. -/
theorem unsignedSpelling_head?_ne (numeral : Numeral) (sign : Sign) :
    numeral.unsignedSpelling.head? ≠ some (signByte sign) := by
  have complete := numeral.complete
  unfold unsignedSpelling
  cases integer : numeral.integer with
  | cons digit digits => simp [digitByte_ne_signByte]
  | nil =>
      rw [integer] at complete
      cases fraction : numeral.fraction with
      | none => simp [fraction] at complete
      | some digits =>
          simp only [fractionSpelling, digitBytes_nil, List.nil_append, List.head?_cons]
          cases sign <;> decide

theorem fractionSpelling_ne_digit_cons (fraction : Option (List Digit)) (digit : Digit)
    (rest : List UInt8) : fractionSpelling fraction ≠ digitByte digit :: rest := by
  cases fraction with
  | none => exact nofun
  | some digits =>
      intro equal
      exact digitByte_ne_pointByte digit (List.cons.inj equal).1.symm

theorem fractionSpelling_injective : Function.Injective fractionSpelling := by
  intro first second equal
  cases first <;> cases second <;> simp [fractionSpelling, digitBytes] at equal ⊢
  exact digitByte_injective.list_map equal

/-- The point, or the end, tells where the integer digits stop. -/
theorem spelledParts_injective {first second : List Digit}
    {firstFraction secondFraction : Option (List Digit)}
    (equal : digitBytes first ++ fractionSpelling firstFraction =
      digitBytes second ++ fractionSpelling secondFraction) :
    first = second ∧ firstFraction = secondFraction := by
  induction first generalizing second with
  | nil =>
      cases second with
      | nil => exact ⟨rfl, fractionSpelling_injective equal⟩
      | cons digit digits => exact absurd equal (fractionSpelling_ne_digit_cons _ _ _)
  | cons digit digits ih =>
      cases second with
      | nil => exact absurd equal.symm (fractionSpelling_ne_digit_cons _ _ _)
      | cons other others =>
          obtain ⟨headEq, tailEq⟩ := List.cons.inj equal
          obtain ⟨digitsEq, fractionEq⟩ := ih tailEq
          rw [digitByte_injective headEq, digitsEq]
          exact ⟨rfl, fractionEq⟩

/-- A string spells at most one numeral. -/
theorem spelling_injective : Function.Injective spelling := by
  intro first second equal
  have signs : first.sign = second.sign ∧
      first.unsignedSpelling = second.unsignedSpelling := by
    unfold spelling signSpelling at equal
    rcases firstSign : first.sign with _ | sign <;>
      rcases secondSign : second.sign with _ | other <;>
      rw [firstSign, secondSign] at equal
    · exact ⟨rfl, equal⟩
    · have firstHead := first.unsignedSpelling_head?_ne other
      rw [Option.toList_none, List.map_nil, List.nil_append] at equal
      rw [equal] at firstHead
      exact absurd rfl firstHead
    · have secondHead := second.unsignedSpelling_head?_ne sign
      rw [Option.toList_none, List.map_nil, List.nil_append] at equal
      rw [← equal] at secondHead
      exact absurd rfl secondHead
    · obtain ⟨signEq, restEq⟩ := List.cons.inj equal
      refine ⟨?_, restEq⟩
      revert signEq
      cases sign <;> cases other <;> decide
  obtain ⟨signEq, unsignedEq⟩ := signs
  obtain ⟨integerEq, fractionEq⟩ := spelledParts_injective unsignedEq
  obtain ⟨sign, integer, fraction, complete⟩ := first
  obtain ⟨otherSign, otherInteger, otherFraction, otherComplete⟩ := second
  cases signEq
  cases integerEq
  cases fractionEq
  rfl

theorem isNumeralByte_of_mem_spelling {numeral : Numeral} {byte : UInt8}
    (member : byte ∈ numeral.spelling) : IsNumeralByte byte := by
  rcases List.mem_append.mp member with inSign | inRest
  · obtain ⟨sign, -, rfl⟩ := List.mem_map.mp inSign
    cases sign <;> decide
  · rcases List.mem_append.mp inRest with inInteger | inFraction
    · exact Or.inl (isDigitByte_of_mem_digitBytes inInteger)
    · cases fraction : numeral.fraction with
      | none => simp [fraction, fractionSpelling] at inFraction
      | some digits =>
          rw [fraction, fractionSpelling, List.mem_cons] at inFraction
          rcases inFraction with point | inDigits
          · exact Or.inr (Or.inl point)
          · exact Or.inl (isDigitByte_of_mem_digitBytes inDigits)

theorem magnitude_nonneg (numeral : Numeral) : 0 ≤ numeral.magnitude := by
  unfold magnitude
  positivity

end Numeral

/-- The value of the first `places` fractional digits, counted in units of
the last place. -/
def leadingPlaces (places : Nat) (fraction : List Digit) : Nat :=
  digitsValue (fraction.take places) *
    10 ^ (places - (fraction.take places).length)

theorem leadingPlaces_lt (places : Nat) (fraction : List Digit) :
    leadingPlaces places fraction < 10 ^ places := by
  have takenLt := digitsValue_lt (fraction.take places)
  have takenLe : (fraction.take places).length ≤ places :=
    List.length_take_le places fraction
  calc
    leadingPlaces places fraction <
        10 ^ (fraction.take places).length *
          10 ^ (places - (fraction.take places).length) := by
      unfold leadingPlaces
      exact Nat.mul_lt_mul_of_pos_right takenLt (by positivity)
    _ = 10 ^ places := by
      rw [← pow_add]
      congr 1
      omega

/-- Digits beyond the first `places` fractional ones, as a part of a unit. -/
def trailingPart (places : Nat) (fraction : List Digit) : ℚ :=
  digitsValue (fraction.drop places) / 10 ^ (fraction.drop places).length

theorem trailingPart_nonneg (places : Nat) (fraction : List Digit) :
    0 ≤ trailingPart places fraction := by
  unfold trailingPart
  positivity

theorem trailingPart_lt_one (places : Nat) (fraction : List Digit) :
    trailingPart places fraction < 1 := by
  have bound := digitsValue_lt (fraction.drop places)
  unfold trailingPart
  rw [div_lt_one (by positivity)]
  exact_mod_cast bound

theorem trailingPart_eq_zero_iff (places : Nat) (fraction : List Digit) :
    trailingPart places fraction = 0 ↔
      ∀ digit ∈ fraction.drop places, digit = 0 := by
  rw [← digitsValue_eq_zero_iff, trailingPart, div_eq_zero_iff]
  simp

theorem scaled_fraction (places : Nat) (fraction : List Digit) :
    (digitsValue fraction : ℚ) / 10 ^ fraction.length * 10 ^ places =
      leadingPlaces places fraction + trailingPart places fraction := by
  by_cases short : fraction.length ≤ places
  · have dropped : fraction.drop places = [] := List.drop_eq_nil_of_le short
    have taken : fraction.take places = fraction := List.take_of_length_le short
    obtain ⟨padding, rfl⟩ := Nat.exists_eq_add_of_le short
    simp only [leadingPlaces, trailingPart, dropped, taken,
      Nat.add_sub_cancel_left, digitsValue_nil]
    push_cast
    rw [pow_add]
    field_simp
    simp
  · have takenLength : (fraction.take places).length = places := by
      rw [List.length_take]
      omega
    have split := digitsValue_append (fraction.take places) (fraction.drop places)
    rw [List.take_append_drop] at split
    have lengths : fraction.length = places + (fraction.drop places).length := by
      rw [List.length_drop]
      omega
    rw [split, lengths]
    simp only [leadingPlaces, trailingPart, takenLength, Nat.sub_self, pow_zero,
      mul_one]
    push_cast
    rw [pow_add]
    field_simp

namespace Numeral

/-- The whole units of `10 ^ (-places)` in the magnitude of a numeral. -/
def units (places : Nat) (numeral : Numeral) : Nat :=
  digitsValue numeral.integer * 10 ^ places +
    leadingPlaces places numeral.fractionDigits

theorem magnitude_scaled (places : Nat) (numeral : Numeral) :
    numeral.magnitude * 10 ^ places =
      numeral.units places + trailingPart places numeral.fractionDigits := by
  have fraction := scaled_fraction places numeral.fractionDigits
  unfold magnitude units
  rw [add_mul, fraction]
  push_cast
  ring

/-- A numeral whose magnitude is a whole number of units has no digit beyond
them. -/
theorem precise_of_integral {places : Nat} {numeral : Numeral} {whole : Nat}
    (integral : numeral.magnitude * 10 ^ places = whole) :
    numeral.Precise places := by
  have scaled := magnitude_scaled places numeral
  have nonneg := trailingPart_nonneg places numeral.fractionDigits
  have ltOne := trailingPart_lt_one places numeral.fractionDigits
  rw [integral] at scaled
  have lower : (numeral.units places : ℚ) ≤ whole := by linarith
  have upper : (whole : ℚ) < numeral.units places + 1 := by linarith
  have lowerNat : numeral.units places ≤ whole := by exact_mod_cast lower
  have upperNat : whole < numeral.units places + 1 := by exact_mod_cast upper
  have whole_eq : whole = numeral.units places := by omega
  apply (trailingPart_eq_zero_iff places numeral.fractionDigits).mp
  rw [whole_eq] at scaled
  linarith

/-- The whole units with the sign of the numeral. -/
def signedUnits (places : Nat) (numeral : Numeral) : Int :=
  if numeral.negative then -(numeral.units places : Int)
  else numeral.units places

theorem value_scaled_of_precise {places : Nat} {numeral : Numeral}
    (precise : numeral.Precise places) :
    numeral.value * 10 ^ places = numeral.signedUnits places := by
  have exact := (trailingPart_eq_zero_iff places numeral.fractionDigits).mpr precise
  have scaled := magnitude_scaled places numeral
  rw [exact, add_zero] at scaled
  unfold value signedUnits
  split
  · rw [neg_mul, scaled]
    push_cast
    rfl
  · rw [scaled]
    push_cast
    rfl

end Numeral

/-- Rounding toward zero. -/
def truncate (number : ℚ) : Int :=
  if 0 ≤ number then ⌊number⌋ else ⌈number⌉

theorem truncate_value_scaled (places : Nat) (numeral : Numeral) :
    truncate (numeral.value * 10 ^ places) = numeral.signedUnits places := by
  have scaled := numeral.magnitude_scaled places
  have nonneg := trailingPart_nonneg places numeral.fractionDigits
  have ltOne := trailingPart_lt_one places numeral.fractionDigits
  have floorEq : ⌊numeral.magnitude * 10 ^ places⌋ = (numeral.units places : Int) := by
    rw [scaled, Int.floor_eq_iff]
    push_cast
    constructor <;> linarith
  have magnitudeNonneg : 0 ≤ numeral.magnitude * 10 ^ places :=
    mul_nonneg numeral.magnitude_nonneg (by positivity)
  unfold truncate Numeral.value Numeral.signedUnits
  by_cases negative : numeral.negative = true
  · simp only [negative, if_true, neg_mul]
    by_cases zero : numeral.magnitude * 10 ^ places = 0
    · rw [zero] at floorEq
      simp only [Int.floor_zero] at floorEq
      simp [zero, ← floorEq]
    · rw [if_neg (by
        have positive := lt_of_le_of_ne magnitudeNonneg (Ne.symm zero)
        linarith), Int.ceil_neg, floorEq]
  · simp only [negative, if_false, Bool.false_eq_true]
    rw [if_pos magnitudeNonneg, floorEq]

end DecimalNumerals
