import ExchangeConnectivity.Base64Encoding
import Mathlib.Data.Nat.Bitwise
import Mathlib.Tactic.Ring

/-!
# The bitwise base64 encoder

`base64Encode` walks over the bits of its input from the highest to the
lowest of each byte.  It collects six of them in `encodedByte` and appends
their character only when the next bit arrives, or after the last byte.
-/

namespace ExchangeConnectivity

namespace Base64

open ByteStrings

def encodingTable : Bytes :=
  ascii ("ABCDEFGH" ++ "IJKLMNOP" ++ "QRSTUVWX" ++ "YZabcdef" ++ "ghijklmn" ++ "opqrstuv" ++
    "wxyz0123" ++ "456789+/")

def maxBitsToEncode : Nat := 6

def bitsInByte : Nat := 8

/-- The variables of the two loops. -/
structure EncodeState where
  result : Bytes
  encodedByte : Nat
  bitToSet : Nat

/-- `result.append(1, ENCODING_TABLE[encodedByte])`, undefined outside the
table. -/
def appendCharacter (result : Bytes) (encodedByte : Nat) : Option Bytes := do
  let character ← encodingTable[encodedByte]?
  some (result ++ [character])

/-- One round of the inner loop.  The promoted `char` has the bits 0 to 7 of
the byte, whatever its sign. -/
def encodeBit (byte : UInt8) (state : EncodeState) (i : Nat) : Option EncodeState := do
  let state ←
    if state.bitToSet = 0 then do
      let result ← appendCharacter state.result state.encodedByte
      some { result, encodedByte := 0, bitToSet := maxBitsToEncode }
    else some state
  let encodedByte :=
    if byte.toNat &&& (1 <<< i) ≠ 0 then state.encodedByte ||| (1 <<< (state.bitToSet - 1))
    else state.encodedByte
  some { state with encodedByte, bitToSet := state.bitToSet - 1 }

/-- The inner loop, with `i` from `BITS_IN_BYTE - 1` down to zero. -/
def encodeByte (state : EncodeState) (byte : UInt8) : Option EncodeState :=
  (List.range bitsInByte).reverse.foldlM (encodeBit byte) state

def base64Encode (str : Bytes) : Option Bytes := do
  let state ← str.foldlM encodeByte
    { result := [], encodedByte := 0, bitToSet := maxBitsToEncode }
  let result ← appendCharacter state.result state.encodedByte
  some (result ++ List.replicate (if 2 = str.length % 3 then 1 else 2) '='.toUInt8)

open Base64Encoding

/-- The state that has collected the bits of `value` and waits for `missing`
more. -/
def pending (result : Bytes) (value missing : Nat) : EncodeState :=
  { result, encodedByte := value * 2 ^ missing, bitToSet := missing }

/-- The table is the alphabet of the encoding. -/
theorem encodingTable_eq : encodingTable = (List.range 64).map character := by
  decide +kernel

theorem appendCharacter_of_lt (result : Bytes) {digit : Nat} (bound : digit < 64) :
    appendCharacter result digit = some (result ++ [character digit]) := by
  have found : encodingTable[digit]? = some (character digit) := by
    rw [encodingTable_eq, List.getElem?_map, List.getElem?_range bound]
    rfl
  rw [appendCharacter, found]
  rfl

/-- A bit of the input is set when it is one as a binary digit. -/
theorem and_shiftLeft_ne_zero (byte : UInt8) (i : Nat) :
    byte.toNat &&& (1 <<< i) ≠ 0 ↔ byte.toNat / 2 ^ i % 2 = 1 := by
  rw [Nat.one_shiftLeft, Nat.and_two_pow, Nat.toNat_testBit]
  have power := Nat.two_pow_pos i
  constructor
  · intro nonzero
    have digit : byte.toNat / 2 ^ i % 2 ≠ 0 := fun zero => nonzero (by rw [zero, Nat.zero_mul])
    omega
  · intro one
    rw [one, Nat.one_mul]
    exact Nat.ne_of_gt power

/-- A round that need not flush adds one bit. -/
theorem encodeBit_pending (byte : UInt8) (result : Bytes) (value missing i : Nat) :
    encodeBit byte (pending result value (missing + 1)) i =
      some (pending result (2 * value + byte.toNat / 2 ^ i % 2) missing) := by
  have shifted : value * 2 ^ (missing + 1) = 2 ^ (missing + 1) * value := Nat.mul_comm _ _
  have lower : 2 ^ missing < 2 ^ (missing + 1) := Nat.pow_lt_pow_succ (by decide)
  have set : value * 2 ^ (missing + 1) ||| 2 ^ missing = (2 * value + 1) * 2 ^ missing := by
    rw [shifted, ← Nat.two_pow_add_eq_or_of_lt lower, Nat.pow_succ]
    ring
  have unset : value * 2 ^ (missing + 1) = 2 * value * 2 ^ missing := by
    rw [Nat.pow_succ]
    ring
  simp only [encodeBit, pending, Nat.add_one_ne_zero, if_false, Option.bind_eq_bind,
    Option.bind_some, Nat.add_sub_cancel, and_shiftLeft_ne_zero, Option.some.injEq,
    EncodeState.mk.injEq, true_and, and_true]
  rw [Nat.one_shiftLeft]
  by_cases one : byte.toNat / 2 ^ i % 2 = 1
  · rw [if_pos one, one, set]
  · have zero : byte.toNat / 2 ^ i % 2 = 0 := by omega
    rw [if_neg one, zero, unset, Nat.add_zero]

/-- A round that finds six bits collected appends their character first. -/
theorem encodeBit_flush (byte : UInt8) (result : Bytes) {value : Nat} (bound : value < 64)
    (i : Nat) :
    encodeBit byte (pending result value 0) i =
      encodeBit byte (pending (result ++ [character value]) 0 6) i := by
  simp only [encodeBit, pending, Nat.pow_zero, Nat.mul_one, Nat.zero_mul, if_true,
    appendCharacter_of_lt result bound, Option.bind_eq_bind, Option.bind_some]
  rfl

/-- The rounds for the bits `i + count - 1` down to `i`, none of which flushes,
add these bits. -/
theorem encodeBits_pending (byte : UInt8) (result : Bytes) (value missing i count : Nat) :
    (List.range' i count).reverse.foldlM (encodeBit byte)
        (pending result value (missing + count)) =
      some (pending result (value * 2 ^ count + byte.toNat / 2 ^ i % 2 ^ count) missing) := by
  induction count generalizing value with
  | zero => simp [Nat.mod_one]
  | succ count ih =>
      have highest : byte.toNat / 2 ^ i % 2 ^ (count + 1) =
          byte.toNat / 2 ^ i % 2 ^ count + 2 ^ count * (byte.toNat / 2 ^ (i + count) % 2) := by
        rw [Nat.mod_pow_succ, Nat.div_div_eq_div_mul, ← Nat.pow_add]
      have collected : (2 * value + byte.toNat / 2 ^ (i + count) % 2) * 2 ^ count +
          byte.toNat / 2 ^ i % 2 ^ count =
            value * 2 ^ (count + 1) + byte.toNat / 2 ^ i % 2 ^ (count + 1) := by
        rw [highest, Nat.pow_succ]
        ring
      rw [List.range'_1_concat, List.reverse_append, List.reverse_singleton,
        List.singleton_append, List.foldlM_cons, ← Nat.add_assoc, encodeBit_pending,
        Option.bind_eq_bind, Option.bind_some, ih, collected]

theorem encodeBits_flush (byte : UInt8) (result : Bytes) {value : Nat} (bound : value < 64)
    (count : Nat) :
    (List.range' 0 (count + 1)).reverse.foldlM (encodeBit byte) (pending result value 0) =
      (List.range' 0 (count + 1)).reverse.foldlM (encodeBit byte)
        (pending (result ++ [character value]) 0 6) := by
  rw [List.range'_1_concat, List.reverse_append, List.reverse_singleton, List.singleton_append,
    List.foldlM_cons, List.foldlM_cons, encodeBit_flush byte result bound]

theorem encodeByte_flush (byte : UInt8) (result : Bytes) {value : Nat} (bound : value < 64) :
    encodeByte (pending result value 0) byte =
      encodeByte (pending (result ++ [character value]) 0 6) byte := by
  rw [encodeByte, List.range_eq_range', encodeByte, List.range_eq_range']
  exact encodeBits_flush byte result bound 7

/-- A byte completes the digit under way with its upper bits and leaves its
lower bits for the next. -/
theorem encodeByte_pending (byte : UInt8) (result : Bytes) {value missing lower : Nat}
    (six : missing + (lower + 1) = 6)
    (bound : value * 2 ^ (missing + 2) + byte.toNat / 2 ^ (lower + 1) < 64) :
    encodeByte (pending result value (missing + 2)) byte =
      some (pending
        (result ++ [character (value * 2 ^ (missing + 2) + byte.toNat / 2 ^ (lower + 1))])
        (byte.toNat % 2 ^ (lower + 1)) missing) := by
  have indices : List.range bitsInByte =
      List.range' 0 (lower + 1) ++ List.range' (lower + 1) (missing + 2) := by
    have eight : bitsInByte = lower + 1 + (missing + 2) := by
      rw [bitsInByte]
      omega
    rw [List.range_eq_range', eight, ← List.range'_append_1, Nat.zero_add]
  have upperBits : byte.toNat / 2 ^ (lower + 1) % 2 ^ (missing + 2) =
      byte.toNat / 2 ^ (lower + 1) := by
    apply Nat.mod_eq_of_lt
    rw [Nat.div_lt_iff_lt_mul (Nat.two_pow_pos _), ← Nat.pow_add]
    have eight : missing + 2 + (lower + 1) = 8 := by omega
    rw [eight]
    exact byte.toNat_lt
  have first := encodeBits_pending byte result value 0 (lower + 1) (missing + 2)
  have second := encodeBits_pending byte
    (result ++ [character (value * 2 ^ (missing + 2) + byte.toNat / 2 ^ (lower + 1))]) 0 missing 0
    (lower + 1)
  rw [Nat.zero_add, upperBits] at first
  rw [six, Nat.zero_mul, Nat.zero_add, Nat.pow_zero, Nat.div_one] at second
  rw [encodeByte, indices, List.reverse_append, List.foldlM_append, first, Option.bind_eq_bind,
    Option.bind_some, encodeBits_flush byte result bound, second]

/-- The first byte of a group completes one digit and leaves two bits. -/
theorem encodeByte_first (byte : UInt8) (result : Bytes) :
    encodeByte (pending result 0 6) byte =
      some (pending (result ++ [character (byte.toNat / 4)]) (byte.toNat % 4) 4) := by
  have bound := byte.toNat_lt
  have byteEq := @encodeByte_pending byte result 0 4 1 rfl (by omega)
  rwa [Nat.zero_mul, Nat.zero_add] at byteEq

/-- The second byte completes one digit and leaves four bits. -/
theorem encodeByte_second (byte : UInt8) (result : Bytes) {value : Nat} (bound : value < 4) :
    encodeByte (pending result value 4) byte =
      some (pending (result ++ [character (value * 16 + byte.toNat / 16)])
        (byte.toNat % 16) 2) := by
  have byteBound := byte.toNat_lt
  exact @encodeByte_pending byte result value 2 3 rfl (by omega)

/-- The third byte completes one digit and collects all six bits of another. -/
theorem encodeByte_third (byte : UInt8) (result : Bytes) {value : Nat} (bound : value < 16) :
    encodeByte (pending result value 2) byte =
      some (pending (result ++ [character (value * 4 + byte.toNat / 64)])
        (byte.toNat % 64) 0) := by
  have byteBound := byte.toNat_lt
  exact @encodeByte_pending byte result value 0 5 rfl (by omega)

/-- The loop over the bytes and the append after it. -/
def encodeFrom (state : EncodeState) (str : Bytes) : Option Bytes := do
  let state ← str.foldlM encodeByte state
  appendCharacter state.result state.encodedByte

theorem encodeFrom_cons (state : EncodeState) (byte : UInt8) (str : Bytes) :
    encodeFrom state (byte :: str) =
      (encodeByte state byte).bind fun state => encodeFrom state str := by
  rw [encodeFrom, List.foldlM_cons]
  cases encodeByte state byte <;> rfl

theorem encodeFrom_nil (result : Bytes) {value missing : Nat}
    (bound : value * 2 ^ missing < 64) :
    encodeFrom (pending result value missing) [] =
      some (result ++ [character (value * 2 ^ missing)]) :=
  appendCharacter_of_lt result bound

/-- What a full group leaves behind is flushed by whatever follows. -/
theorem encodeFrom_flush (result : Bytes) {value : Nat} (bound : value < 64) {str : Bytes}
    (nonempty : str ≠ []) :
    encodeFrom (pending result value 0) str =
      encodeFrom (pending (result ++ [character value]) 0 6) str := by
  cases str with
  | nil => exact absurd rfl nonempty
  | cons byte str =>
      rw [encodeFrom_cons, encodeFrom_cons, encodeByte_flush byte result bound]

theorem encodeFrom_group (result : Bytes) (first second third : UInt8) (str : Bytes) :
    encodeFrom (pending result 0 6) (first :: second :: third :: str) =
      encodeFrom (pending (result ++ (digits [first, second, third]).dropLast.map character)
        (third.toNat % 64) 0) str := by
  rw [encodeFrom_cons, encodeByte_first, Option.bind_some, encodeFrom_cons,
    encodeByte_second _ _ (by omega), Option.bind_some, encodeFrom_cons,
    encodeByte_third _ _ (by omega), Option.bind_some]
  simp [digits]

/-- The loop writes the digits of a nonempty string, group by group. -/
theorem encodeFrom_eq (result : Bytes) {str : Bytes} (nonempty : str ≠ []) :
    encodeFrom (pending result 0 6) str = some (result ++ (digits str).map character) := by
  induction str using digits.induct generalizing result with
  | case1 => exact absurd rfl nonempty
  | case2 first =>
      have bound := first.toNat_lt
      rw [encodeFrom_cons, encodeByte_first, Option.bind_some, encodeFrom_nil _ (by omega)]
      simp [digits]
  | case3 first second =>
      have bound := second.toNat_lt
      rw [encodeFrom_cons, encodeByte_first, Option.bind_some, encodeFrom_cons,
        encodeByte_second _ _ (by omega), Option.bind_some, encodeFrom_nil _ (by omega)]
      simp [digits]
  | case4 first second third rest ih =>
      rw [encodeFrom_group]
      by_cases last : rest = []
      · subst last
        rw [encodeFrom_nil _ (by omega)]
        simp [digits]
      · rw [encodeFrom_flush _ (by omega) last, ih _ last]
        simp [digits]

/-- What `base64Encode` returns: one digit for the empty string, the digits
of any other, and at least one `=`. -/
theorem base64Encode_eq (str : Bytes) :
    base64Encode str =
      some ((if str = [] then [0] else digits str).map character ++
        List.replicate (if 2 = str.length % 3 then 1 else 2) padByte) := by
  have written : encodeFrom (pending [] 0 6) str =
      some ((if str = [] then [0] else digits str).map character) := by
    by_cases empty : str = []
    · subst empty
      rw [encodeFrom_nil _ (by decide)]
      rfl
    · rw [if_neg empty, encodeFrom_eq [] empty, List.nil_append]
  have split : base64Encode str = (encodeFrom (pending [] 0 6) str).bind fun result =>
      some (result ++
        List.replicate (if 2 = str.length % 3 then 1 else 2) padByte) := by
    rw [base64Encode, encodeFrom, Option.bind_eq_bind, Option.bind_eq_bind, Option.bind_assoc]
    rfl
  rw [split, written, Option.bind_some]

example : base64Encode (ascii "foobar!") = some (ascii "Zm9vYmFyIQ==") := by
  decide +kernel

/-- What a string is encoded to under RFC 4648: its encoding, with the length
and the padding that the length of the string determines, which decodes to
the string. -/
structure IsRfc4648 (str : Bytes) (text : Bytes) : Prop where
  encoding : text = encode str
  length : text.length = 4 * ((str.length + 2) / 3)
  padding : text.count padByte = (3 - str.length % 3) % 3
  decodes : decode text = some str

theorem isRfc4648_iff (str text : Bytes) : IsRfc4648 str text ↔ text = encode str := by
  constructor
  · exact fun correct => correct.encoding
  · intro equal
    subst equal
    exact ⟨rfl, length_encode str, count_padByte_encode str, decode_encode str⟩

/-- The encoder agrees with RFC 4648 except on the lengths divisible by
three, which it pads. -/
theorem base64Encode_correct_iff (str : Bytes) :
    (∃ text, base64Encode str = some text ∧ IsRfc4648 str text) ↔ str.length % 3 ≠ 0 := by
  rw [base64Encode_eq]
  constructor
  · rintro ⟨text, returned, correct⟩ divisible
    have count := correct.padding
    rw [← Option.some.inj returned, List.count_append, List.count_replicate_self] at count
    simp [divisible] at count
  · intro notDivisible
    have nonempty : str ≠ [] := by
      intro empty
      rw [empty] at notDivisible
      exact notDivisible rfl
    have padding : (if 2 = str.length % 3 then 1 else 2) = (3 - str.length % 3) % 3 := by
      split <;> omega
    refine ⟨encode str, ?_, (isRfc4648_iff str _).mpr rfl⟩
    rw [if_neg nonempty, padding, encode]

/-- The text for three bytes is padded where nothing is missing. -/
theorem base64Encode_three_bytes :
    base64Encode (ascii "abc") = some (ascii "YWJj==") ∧
      ¬ ∃ text, base64Encode (ascii "abc") = some text ∧ IsRfc4648 (ascii "abc") text := by
  have returned : base64Encode (ascii "abc") = some (ascii "YWJj==") := by
    decide +kernel
  refine ⟨returned, ?_⟩
  rintro ⟨text, other, correct⟩
  have length := correct.length
  rw [← Option.some.inj (returned.symm.trans other)] at length
  revert length
  decide

end Base64

end ExchangeConnectivity
