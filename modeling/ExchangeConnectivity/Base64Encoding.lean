import ExchangeConnectivity.ByteStrings
import Mathlib.Data.List.Count

/-!
# The base64 encoding

RFC 4648 reads three bytes as one number of 24 bits and writes its four
six-bit digits with an alphabet of 64 characters.  A last group of one or two
bytes is completed with zero bits, and its missing digits are written as `=`.
Decoding goes back group by group and gives every byte string back.
-/

namespace Base64Encoding

open ByteStrings

def alphabet : Bytes :=
  ascii "ABCDEFGHIJKLMNOPQRSTUVWXYZabcdefghijklmnopqrstuvwxyz0123456789+/"

def padByte : UInt8 := '='.toUInt8

/-- The character of a six-bit digit. -/
def character (digit : Nat) : UInt8 :=
  alphabet.getD digit 0

/-- The six-bit digit of a character of the alphabet. -/
def digitOf (byte : UInt8) : Option Nat :=
  alphabet.idxOf? byte

theorem digitOf_character {digit : Nat} (bound : digit < 64) :
    digitOf (character digit) = some digit := by
  have all : ∀ digit : Fin 64, digitOf (character digit.val) = some digit.val := by
    decide +kernel
  exact all ⟨digit, bound⟩

theorem character_ne_padByte {digit : Nat} (bound : digit < 64) :
    character digit ≠ padByte := by
  have all : ∀ digit : Fin 64, character digit.val ≠ padByte := by
    decide +kernel
  exact all ⟨digit, bound⟩

/-- The digits that carry bits of the bytes, group by group. -/
def digits : Bytes → List Nat
  | [] => []
  | [first] => [first.toNat / 4, first.toNat % 4 * 16]
  | [first, second] =>
      [first.toNat / 4, first.toNat % 4 * 16 + second.toNat / 16, second.toNat % 16 * 4]
  | first :: second :: third :: rest =>
      first.toNat / 4 :: (first.toNat % 4 * 16 + second.toNat / 16) ::
        (second.toNat % 16 * 4 + third.toNat / 64) :: third.toNat % 64 :: digits rest

theorem lt_of_mem_digits {bytes : Bytes} {digit : Nat} (member : digit ∈ digits bytes) :
    digit < 64 := by
  induction bytes using digits.induct with
  | case1 => cases member
  | case2 first =>
      have bound := first.toNat_lt
      simp only [digits, List.mem_cons, List.not_mem_nil, or_false] at member
      omega
  | case3 first second =>
      have bound := first.toNat_lt
      have secondBound := second.toNat_lt
      simp only [digits, List.mem_cons, List.not_mem_nil, or_false] at member
      omega
  | case4 first second third rest ih =>
      have bound := first.toNat_lt
      have secondBound := second.toNat_lt
      have thirdBound := third.toNat_lt
      simp only [digits, List.mem_cons] at member
      rcases member with rfl | rfl | rfl | rfl | member
      · omega
      · omega
      · omega
      · omega
      · exact ih member

theorem length_digits (bytes : Bytes) :
    (digits bytes).length = (4 * bytes.length + 2) / 3 := by
  induction bytes using digits.induct with
  | case1 => rfl
  | case2 first => simp [digits]
  | case3 first second => simp [digits]
  | case4 first second third rest ih =>
      simp only [digits, List.length_cons, ih]
      omega

/-- The digits of the bytes, completed with `=` to groups of four. -/
def encode (bytes : Bytes) : Bytes :=
  (digits bytes).map character ++ List.replicate ((3 - bytes.length % 3) % 3) padByte

@[simp]
theorem encode_nil : encode [] = [] :=
  rfl

theorem encode_cons (first second third : UInt8) (rest : Bytes) :
    encode (first :: second :: third :: rest) =
      character (first.toNat / 4) ::
        character (first.toNat % 4 * 16 + second.toNat / 16) ::
        character (second.toNat % 16 * 4 + third.toNat / 64) ::
        character (third.toNat % 64) :: encode rest := by
  have same : (rest.length + 1 + 1 + 1) % 3 = rest.length % 3 := by omega
  simp only [encode, digits, List.map_cons, List.length_cons, List.cons_append, same]

/-- Encoded text consists of groups of four characters, one for every three
bytes begun. -/
theorem length_encode (bytes : Bytes) :
    (encode bytes).length = 4 * ((bytes.length + 2) / 3) := by
  rw [encode, List.length_append, List.length_map, length_digits, List.length_replicate]
  omega

/-- Only the completion of the last group contains `=`. -/
theorem count_padByte_encode (bytes : Bytes) :
    (encode bytes).count padByte = (3 - bytes.length % 3) % 3 := by
  have absent : padByte ∉ (digits bytes).map character := by
    intro member
    obtain ⟨digit, inside, equal⟩ := List.mem_map.mp member
    exact character_ne_padByte (lt_of_mem_digits inside) equal
  rw [encode, List.count_append, List.count_eq_zero_of_not_mem absent,
    List.count_replicate_self, Nat.zero_add]

/-- A group of four digits. -/
def decodeFull (first second third fourth : UInt8) : Option Bytes := do
  let a ← digitOf first
  let b ← digitOf second
  let c ← digitOf third
  let d ← digitOf fourth
  some [UInt8.ofNat (a * 4 + b / 16), UInt8.ofNat (b % 16 * 16 + c / 4),
    UInt8.ofNat (c % 4 * 64 + d)]

/-- The last group, which may be completed with one or two `=`; the bits
that complete it have to be zero. -/
def decodeLast (first second third fourth : UInt8) : Option Bytes :=
  if fourth = padByte then do
    let a ← digitOf first
    let b ← digitOf second
    if third = padByte then
      if b % 16 = 0 then some [UInt8.ofNat (a * 4 + b / 16)] else none
    else do
      let c ← digitOf third
      if c % 4 = 0 then
        some [UInt8.ofNat (a * 4 + b / 16), UInt8.ofNat (b % 16 * 16 + c / 4)]
      else none
  else decodeFull first second third fourth

/-- Text in groups of four characters, the last of them possibly padded. -/
def decode : Bytes → Option Bytes
  | [] => some []
  | first :: second :: third :: fourth :: rest =>
      if rest = [] then decodeLast first second third fourth
      else do
        let bytes ← decodeFull first second third fourth
        let others ← decode rest
        some (bytes ++ others)
  | _ => none

theorem ofNat_eq_of_toNat {byte : UInt8} {number : Nat} (equal : number = byte.toNat) :
    UInt8.ofNat number = byte := by
  rw [equal, UInt8.ofNat_toNat]

theorem decodeFull_characters (first second third : UInt8) :
    decodeFull (character (first.toNat / 4))
        (character (first.toNat % 4 * 16 + second.toNat / 16))
        (character (second.toNat % 16 * 4 + third.toNat / 64))
        (character (third.toNat % 64)) =
      some [first, second, third] := by
  have firstBound := first.toNat_lt
  have secondBound := second.toNat_lt
  have thirdBound := third.toNat_lt
  rw [decodeFull, digitOf_character (by omega), digitOf_character (by omega),
    digitOf_character (by omega), digitOf_character (by omega)]
  simp only [Option.bind_eq_bind, Option.bind_some, Option.some.injEq, List.cons.injEq,
    and_true]
  refine ⟨ofNat_eq_of_toNat ?_, ofNat_eq_of_toNat ?_, ofNat_eq_of_toNat ?_⟩
  · omega
  · omega
  · omega

/-- Decoding inverts encoding. -/
theorem decode_encode (bytes : Bytes) : decode (encode bytes) = some bytes := by
  induction bytes using digits.induct with
  | case1 => rfl
  | case2 first =>
      have bound := first.toNat_lt
      have written : encode [first] =
          [character (first.toNat / 4), character (first.toNat % 4 * 16), padByte, padByte] :=
        rfl
      rw [written, decode, if_pos rfl, decodeLast, if_pos rfl,
        digitOf_character (by omega), digitOf_character (by omega)]
      simp only [Option.bind_eq_bind, Option.bind_some, if_true]
      have firstBack : UInt8.ofNat
          (first.toNat / 4 * 4 + first.toNat % 4 * 16 / 16) = first :=
        ofNat_eq_of_toNat (by omega)
      rw [if_pos (by omega), firstBack]
  | case3 first second =>
      have bound := first.toNat_lt
      have secondBound := second.toNat_lt
      have written : encode [first, second] =
          [character (first.toNat / 4),
            character (first.toNat % 4 * 16 + second.toNat / 16),
            character (second.toNat % 16 * 4), padByte] :=
        rfl
      rw [written, decode, if_pos rfl, decodeLast, if_pos rfl,
        digitOf_character (by omega), digitOf_character (by omega)]
      simp only [Option.bind_eq_bind, Option.bind_some]
      rw [if_neg (character_ne_padByte (by omega)), digitOf_character (by omega)]
      simp only [Option.bind_some]
      have firstBack : UInt8.ofNat (first.toNat / 4 * 4 +
          (first.toNat % 4 * 16 + second.toNat / 16) / 16) = first :=
        ofNat_eq_of_toNat (by omega)
      have secondBack : UInt8.ofNat ((first.toNat % 4 * 16 + second.toNat / 16) % 16 * 16 +
          second.toNat % 16 * 4 / 4) = second :=
        ofNat_eq_of_toNat (by omega)
      rw [if_pos (by omega), firstBack, secondBack]
  | case4 first second third rest ih =>
      have thirdBound := third.toNat_lt
      rw [encode_cons, decode]
      by_cases last : rest = []
      · subst last
        rw [encode_nil, if_pos rfl, decodeLast, if_neg (character_ne_padByte (by omega)),
          decodeFull_characters]
      · have more : encode rest ≠ [] := by
          intro empty
          have length := length_encode rest
          have positive := List.length_pos_iff.mpr last
          rw [empty, List.length_nil] at length
          omega
        rw [if_neg more, decodeFull_characters, ih]
        rfl

end Base64Encoding
