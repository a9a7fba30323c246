import ExchangeConnectivity.HexRoundTrips
import Mathlib.Data.Nat.Digits.Lemmas

/-!
# Hexadecimal numerals of integers

`intToHex` takes the digits of an `int`, as an unsigned number, from the lowest
to the highest and reverses them.  The text is the number's shortest numeral,
and the decoders read the number back from it.
-/

namespace ExchangeConnectivity

open ByteStrings BoundedLoops FailingComputations PercentEncoding StringUtilities

namespace HexConverter

structure NumeralState where
  num : UInt32
  result : Bytes

/-- One round of `while (num > 0)`. -/
def numeralRound (state : NumeralState) :
    Except StringUtilities.Fault (ForInStep NumeralState) :=
  if state.num > 0 then do
    let remainder := state.num &&& 0xF
    let digit ← tableAt remainder.toUInt8
    .ok (.yield { num := state.num >>> 4, result := state.result ++ [digit] })
  else .ok (.done state)

/-- The loop is given up after more rounds than a number has bits. -/
def intToHex (value : Int32) : Except StringUtilities.Fault Bytes := do
  let num := value.toUInt32
  if num = 0 then
    let digit ← tableAt 0
    .ok [digit]
  else
    let state ← loop StringUtilities.Fault.unfinished numeralRound 33 { num, result := [] }
    .ok state.result.reverse

/-- The number a text of digits denotes, highest digit first. -/
def numberOf (text : Bytes) : Nat :=
  text.foldl (fun number symbol => 16 * number + (hexCode symbol).toNat) 0

/-- The number that bytes denote, highest byte first. -/
def bigEndian (bytes : Bytes) : Nat :=
  bytes.foldl (fun number byte => 256 * number + byte.toNat) 0

/-- The shortest numeral of a number. -/
def numeral (number : Nat) : Bytes :=
  if number = 0 then [upperHexDigit 0]
  else ((Nat.digits 16 number).map upperHexDigit).reverse

/-- The text is the numeral of a number of four bytes. -/
structure IsNumeral (number : Nat) (text : Bytes) : Prop where
  digits : ∀ symbol ∈ text, symbol ∈ table
  length_le : text.length ≤ 8
  number_eq : numberOf text = number
  shortest : text.head? = some '0'.toUInt8 → text = ['0'.toUInt8]
  decoded : text.length % 2 = 0 → ∃ bytes, hex2Bytes text = .ok bytes ∧ bigEndian bytes = number

theorem numberOf_reverse_map {digits : List Nat} (bound : ∀ digit ∈ digits, digit < 16) :
    numberOf (digits.map upperHexDigit).reverse = Nat.ofDigits 16 digits := by
  rw [numberOf, List.foldl_reverse]
  induction digits with
  | nil => rfl
  | cons digit digits ih =>
      obtain ⟨first, others⟩ := List.forall_mem_cons.mp bound
      rw [List.map_cons, List.foldr_cons, ih others, hexCode_upperHexDigit first,
        Nat.ofDigits_cons, Nat.add_comm]

theorem numberOf_numeral (number : Nat) : numberOf (numeral number) = number := by
  rw [numeral]
  split
  next isZero =>
    rw [isZero]
    rfl
  next =>
    rw [numberOf_reverse_map fun digit => Nat.digits_lt_base (by decide), Nat.ofDigits_digits]

theorem mem_numeral {number : Nat} {symbol : UInt8} (member : symbol ∈ numeral number) :
    ∃ digit < 16, symbol = upperHexDigit digit := by
  rw [numeral] at member
  split at member
  · exact ⟨0, by decide, List.mem_singleton.mp member⟩
  · rw [List.mem_reverse, List.mem_map] at member
    obtain ⟨digit, isDigit, rfl⟩ := member
    exact ⟨digit, Nat.digits_lt_base (by decide) isDigit, rfl⟩

theorem upperHexDigit_mem_table {digit : Nat} (bound : digit < 16) :
    upperHexDigit digit ∈ table := by
  have all : ∀ digit : Fin 16, upperHexDigit digit.val ∈ table := by decide +kernel
  exact all ⟨digit, bound⟩

theorem length_numeral_le {number : Nat} (bound : number < 2 ^ 32) :
    (numeral number).length ≤ 8 := by
  rw [numeral]
  split
  · exact Nat.le_add_left 1 7
  · rw [List.length_reverse, List.length_map, Nat.digits_length_le_iff (by decide)]
    exact bound

/-- Only the numeral of zero begins with a zero. -/
theorem numeral_shortest {number : Nat} (zeroFirst : (numeral number).head? = some '0'.toUInt8) :
    numeral number = ['0'.toUInt8] := by
  by_cases isZero : number = 0
  · rw [isZero]
    rfl
  · have nonempty : Nat.digits 16 number ≠ [] := Nat.digits_ne_nil_iff_ne_zero.mpr isZero
    rw [numeral, if_neg isZero, List.head?_reverse, List.getLast?_map,
      List.getLast?_eq_some_getLast nonempty, Option.map_some, Option.some_inj] at zeroFirst
    have isDigit := Nat.digits_lt_base (by decide) (List.getLast_mem nonempty)
    have lastZero := hexCode_upperHexDigit isDigit
    rw [zeroFirst] at lastZero
    exact absurd lastZero.symm (Nat.getLast_digit_ne_zero 16 isZero)

/-- The bytes read from pairs of digits denote the same number. -/
theorem bigEndian_bytesOf {text : Bytes} (even : text.length % 2 = 0)
    (isDigit : ∀ symbol ∈ text, (hexCode symbol).toNat < 16) :
    bigEndian (bytesOf text) = numberOf text := by
  suffices general : ∀ number, (bytesOf text).foldl (fun number byte => 256 * number + byte.toNat)
      number = text.foldl (fun number symbol => 16 * number + (hexCode symbol).toNat) number from
    general 0
  induction text using bytesOf.induct with
  | case1 high low rest ih =>
      intro number
      simp only [List.forall_mem_cons] at isDigit
      obtain ⟨highBound, lowBound, restBound⟩ := isDigit
      have value : (byteOf high low).toNat = 16 * (hexCode high).toNat + (hexCode low).toNat := by
        rw [byteOf, UInt8.toNat_add, UInt8.toNat_mul]
        show (16 * (hexCode high).toNat % 256 + (hexCode low).toNat) % 256 = _
        omega
      rw [List.length_cons, List.length_cons] at even
      rw [bytesOf, List.foldl_cons, List.foldl_cons, List.foldl_cons, ih (by omega) restBound,
        value]
      congr 1
      omega
  | case2 text short =>
      cases text with
      | nil => exact fun _ => rfl
      | cons high others =>
          cases others with
          | nil => cases even
          | cons low rest => exact absurd rfl (short high low rest)

theorem numeral_isNumeral {number : Nat} (bound : number < 2 ^ 32) :
    IsNumeral number (numeral number) := by
  refine ⟨fun symbol member => ?_, length_numeral_le bound, numberOf_numeral number,
    numeral_shortest, fun even => ?_⟩
  · obtain ⟨digit, isDigit, rfl⟩ := mem_numeral member
    exact upperHexDigit_mem_table isDigit
  · have short := length_numeral_le bound
    refine ⟨_, decodeLoop_eq (by omega) even, ?_⟩
    rw [bigEndian_bytesOf even, numberOf_numeral]
    intro symbol member
    obtain ⟨digit, isDigit, rfl⟩ := mem_numeral member
    rw [hexCode_upperHexDigit isDigit]
    exact isDigit

/-- What every round keeps: the digits found and those of the number left are
the digits of the number. -/
def Numbering (number : Nat) (state : NumeralState) : Prop :=
  state.result ++ (Nat.digits 16 state.num.toNat).map upperHexDigit =
    (Nat.digits 16 number).map upperHexDigit

theorem numeralRound_cases {number : Nat} (state : NumeralState)
    (numbering : Numbering number state) :
    (∃ next, numeralRound state = .ok (.yield next) ∧ Numbering number next ∧
        (Nat.digits 16 next.num.toNat).length < (Nat.digits 16 state.num.toNat).length) ∨
      ∃ final, numeralRound state = .ok (.done final) ∧
        final.result = (Nat.digits 16 number).map upperHexDigit := by
  by_cases positive : state.num > 0
  · have positiveNat : 0 < state.num.toNat := UInt32.lt_iff_toNat_lt.mp positive
    have digitsEq := Nat.digits_def' (show 1 < 16 by decide) positiveNat
    have shifted : (state.num >>> 4).toNat = state.num.toNat / 16 := by
      simp [UInt32.toNat_shiftRight, Nat.shiftRight_eq_div_pow]
    have remainder : (state.num &&& 0xF).toUInt8.toNat = state.num.toNat % 16 := by
      have masked : (state.num &&& 0xF).toNat = state.num.toNat % 16 := by
        rw [UInt32.toNat_and]
        exact Nat.and_two_pow_sub_one_eq_mod state.num.toNat 4
      rw [UInt32.toNat_toUInt8, masked]
      omega
    refine .inl ⟨{ num := state.num >>> 4
                   result := state.result ++ [upperHexDigit (state.num.toNat % 16)] }, ?_, ?_, ?_⟩
    · rw [numeralRound, if_pos positive]
      dsimp only
      rw [tableAt_eq (by omega), remainder]
      rfl
    · rw [Numbering, shifted, ← numbering, digitsEq, List.map_cons, List.append_assoc]
      rfl
    · rw [shifted, digitsEq, List.length_cons]
      exact Nat.lt_succ_self _
  · have isZero : state.num.toNat = 0 := by
      have notPositive := fun less => positive (UInt32.lt_iff_toNat_lt.mpr less)
      exact Nat.eq_zero_of_not_pos notPositive
    refine .inr ⟨state, if_neg positive, ?_⟩
    rw [Numbering, isZero, Nat.digits_zero, List.map_nil, List.append_nil] at numbering
    exact numbering

theorem intToHex_eq (value : Int32) : intToHex value = .ok (numeral value.toUInt32.toNat) := by
  have bound : value.toUInt32.toNat < 2 ^ 32 := value.toUInt32.toNat_lt
  rw [intToHex, numeral]
  by_cases isZero : value.toUInt32 = 0
  · rw [isZero]
    rfl
  · have notZero : value.toUInt32.toNat ≠ 0 := fun same => isZero (UInt32.toNat_inj.mp same)
    have initial : Numbering value.toUInt32.toNat { num := value.toUInt32, result := [] } := rfl
    have length : (Nat.digits 16 value.toUInt32.toNat).length ≤ 8 :=
      (Nat.digits_length_le_iff (by decide) _).mpr bound
    obtain ⟨final, run, resultEq⟩ := @loop_rule _ _ StringUtilities.Fault.unfinished _ _ _ _ _
      numeralRound_cases initial 33 (Nat.lt_of_le_of_lt length (by decide))
    rw [if_neg isZero, if_neg notZero, run, ok_bind, resultEq]

/-- Every `int` is printed as the shortest numeral of the unsigned number it
converts to, which is read back from it, and no two are printed alike. -/
theorem ints_printed_in_hex (value : Int32) :
    ∃ text, intToHex value = .ok text ∧ IsNumeral value.toUInt32.toNat text ∧
      ∀ other, intToHex other = .ok text → other = value := by
  refine ⟨numeral value.toUInt32.toNat, intToHex_eq value,
    numeral_isNumeral value.toUInt32.toNat_lt, fun other printed => ?_⟩
  rw [intToHex_eq, Except.ok.injEq] at printed
  have sameNumber := congrArg numberOf printed
  rw [numberOf_numeral, numberOf_numeral] at sameNumber
  exact congrArg Int32.ofUInt32 (UInt32.toNat_inj.mp sameNumber)

example : intToHex (-1) = .ok (ascii "FFFFFFFF") := by decide

end HexConverter

end ExchangeConnectivity
