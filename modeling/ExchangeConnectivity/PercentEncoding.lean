import ExchangeConnectivity.ByteStrings
import Mathlib.Data.List.Forall2

/-!
# Percent-encoded query strings

A byte is either kept or written as `%` and two hexadecimal digits.  Decoding
inverts the encoding whenever `%` itself is not kept, and a query string
assembled from encoded pairs is read back pair by pair.
-/

namespace PercentEncoding

open ByteStrings

def percentByte : UInt8 := '%'.toUInt8

def ampersandByte : UInt8 := '&'.toUInt8

def equalsByte : UInt8 := '='.toUInt8

/-- The upper-case hexadecimal digit of a number below sixteen. -/
def upperHexDigit (nibble : Nat) : UInt8 :=
  if nibble < 10 then UInt8.ofNat (48 + nibble) else UInt8.ofNat (55 + nibble)

/-- The number a hexadecimal digit of either case denotes. -/
def hexDigitValue (byte : UInt8) : Option Nat :=
  if 48 ≤ byte.toNat ∧ byte.toNat ≤ 57 then some (byte.toNat - 48)
  else if 65 ≤ byte.toNat ∧ byte.toNat ≤ 70 then some (byte.toNat - 55)
  else if 97 ≤ byte.toNat ∧ byte.toNat ≤ 102 then some (byte.toNat - 87)
  else none

theorem upperHexDigit_toNat {nibble : Nat} (bound : nibble < 16) :
    (upperHexDigit nibble).toNat = if nibble < 10 then 48 + nibble else 55 + nibble := by
  unfold upperHexDigit
  split <;> simp only [UInt8.toNat_ofNat'] <;> omega

@[simp]
theorem hexDigitValue_upperHexDigit {nibble : Nat} (bound : nibble < 16) :
    hexDigitValue (upperHexDigit nibble) = some nibble := by
  unfold hexDigitValue
  rw [upperHexDigit_toNat bound]
  by_cases decimal : nibble < 10
  · rw [if_pos decimal, if_pos (by omega)]
    congr 1
    omega
  · rw [if_neg decimal, if_neg (by omega), if_pos (by omega)]
    congr 1
    omega

/-- A byte as two upper-case hexadecimal digits. -/
def hexPair (byte : UInt8) : Bytes :=
  [upperHexDigit (byte.toNat / 16), upperHexDigit (byte.toNat % 16)]

/-- Upper-case hexadecimal digits are digits or letters. -/
theorem toNat_of_mem_hexPair {byte digit : UInt8} (member : digit ∈ hexPair byte) :
    48 ≤ digit.toNat ∧ digit.toNat ≤ 57 ∨ 65 ≤ digit.toNat ∧ digit.toNat ≤ 70 := by
  have bound := byte.toNat_lt
  simp only [hexPair, List.mem_cons, List.not_mem_nil, or_false] at member
  rcases member with rfl | rfl <;>
    rw [upperHexDigit_toNat (by omega)] <;> split <;> omega

/-- Bytes as upper-case hexadecimal digits. -/
def upperHex (bytes : Bytes) : Bytes :=
  bytes.flatMap hexPair

theorem length_upperHex (bytes : Bytes) : (upperHex bytes).length = 2 * bytes.length := by
  induction bytes with
  | nil => rfl
  | cons byte bytes ih =>
      rw [upperHex, List.flatMap_cons, List.length_append]
      rw [upperHex] at ih
      rw [ih, List.length_cons]
      simp only [hexPair, List.length_cons, List.length_nil]
      omega

theorem ampersand_not_mem_upperHex (bytes : Bytes) : ampersandByte ∉ upperHex bytes := by
  intro member
  obtain ⟨byte, -, inside⟩ := List.mem_flatMap.mp member
  have range := toNat_of_mem_hexPair inside
  revert range
  decide

def encodeByte (keep : UInt8 → Bool) (byte : UInt8) : Bytes :=
  if keep byte then [byte] else percentByte :: hexPair byte

def percentEncode (keep : UInt8 → Bool) (bytes : Bytes) : Bytes :=
  bytes.flatMap (encodeByte keep)

def percentDecode : Bytes → Option Bytes
  | [] => some []
  | byte :: rest =>
      if byte = percentByte then
        match rest with
        | high :: low :: tail => do
            let highValue ← hexDigitValue high
            let lowValue ← hexDigitValue low
            let decoded ← percentDecode tail
            some (UInt8.ofNat (16 * highValue + lowValue) :: decoded)
        | _ => none
      else (percentDecode rest).map (byte :: ·)

theorem percentDecode_cons {byte : UInt8} (notPercent : byte ≠ percentByte)
    (rest : Bytes) :
    percentDecode (byte :: rest) = (percentDecode rest).map (byte :: ·) := by
  rcases rest with _ | ⟨high, _ | ⟨low, tail⟩⟩ <;>
    simp [percentDecode, notPercent]

theorem percentDecode_hexPair (byte : UInt8) (rest : Bytes) :
    percentDecode (percentByte :: (hexPair byte ++ rest)) =
      (percentDecode rest).map (byte :: ·) := by
  have bound := byte.toNat_lt
  have restored : 16 * (byte.toNat / 16) + byte.toNat % 16 = byte.toNat := by omega
  simp only [hexPair, List.cons_append, List.nil_append]
  rw [percentDecode, if_pos rfl, hexDigitValue_upperHexDigit (by omega),
    hexDigitValue_upperHexDigit (by omega)]
  simp only [Option.bind_eq_bind, Option.bind_some, restored, UInt8.ofNat_toNat]
  cases percentDecode rest <;> rfl

theorem percentDecode_encodeByte {keep : UInt8 → Bool}
    (escaped : keep percentByte = false) (byte : UInt8) (rest : Bytes) :
    percentDecode (encodeByte keep byte ++ rest) =
      (percentDecode rest).map (byte :: ·) := by
  unfold encodeByte
  split
  · next kept =>
      have notPercent : byte ≠ percentByte := by
        rintro rfl
        simp [escaped] at kept
      exact percentDecode_cons notPercent rest
  · exact percentDecode_hexPair byte rest

theorem percentDecode_percentEncode {keep : UInt8 → Bool}
    (escaped : keep percentByte = false) (bytes : Bytes) :
    percentDecode (percentEncode keep bytes) = some bytes := by
  induction bytes with
  | nil => rfl
  | cons byte bytes ih =>
      rw [percentEncode, List.flatMap_cons, percentDecode_encodeByte escaped]
      rw [percentEncode] at ih
      rw [ih]
      rfl

theorem percentDecode_of_plain {bytes : Bytes} (plain : percentByte ∉ bytes) :
    percentDecode bytes = some bytes := by
  induction bytes with
  | nil => rfl
  | cons byte bytes ih =>
      simp only [List.mem_cons, not_or] at plain
      rw [percentDecode_cons (Ne.symm plain.1), ih plain.2]
      rfl

/-- An encoded string consists of kept bytes, `%` and hexadecimal digits. -/
theorem not_mem_percentEncode {keep : UInt8 → Bool} {byte : UInt8}
    (dropped : keep byte = false) (notPercent : byte ≠ percentByte)
    (notHex : ¬ (48 ≤ byte.toNat ∧ byte.toNat ≤ 57 ∨
      65 ≤ byte.toNat ∧ byte.toNat ≤ 70)) (bytes : Bytes) :
    byte ∉ percentEncode keep bytes := by
  intro member
  obtain ⟨source, -, inside⟩ := List.mem_flatMap.mp member
  unfold encodeByte at inside
  split at inside
  · next kept =>
      rw [List.mem_singleton] at inside
      rw [← inside, dropped] at kept
      cases kept
  · rcases List.mem_cons.mp inside with percent | digit
    · exact notPercent percent
    · exact notHex (toNat_of_mem_hexPair digit)

/-- One `key=value` piece of a query with its values decoded. -/
def parsePair (piece : Bytes) : Option (Bytes × Bytes) := do
  let parts ← splitFirst equalsByte piece
  let key ← percentDecode parts.1
  let value ← percentDecode parts.2
  some (key, value)

/-- The decoded `key=value` pieces between the ampersands of a query. -/
def parseQuery (query : Bytes) : Option (List (Bytes × Bytes)) :=
  (query.splitOn ampersandByte).mapM parsePair

def renderPair (pair : Bytes × Bytes) : Bytes :=
  pair.1 ++ equalsByte :: pair.2

def renderQuery (pairs : List (Bytes × Bytes)) : Bytes :=
  [ampersandByte].intercalate (pairs.map renderPair)

theorem renderQuery_ne_nil {pairs : List (Bytes × Bytes)} (nonempty : pairs ≠ []) :
    renderQuery pairs ≠ [] := by
  obtain ⟨pair, rest, rfl⟩ := List.exists_cons_of_ne_nil nonempty
  cases rest with
  | nil => simp [renderQuery, renderPair, List.intercalate]
  | cons next rest => simp [renderQuery, renderPair, List.intercalate]

theorem renderQuery_cons_cons (first second : Bytes × Bytes)
    (rest : List (Bytes × Bytes)) :
    renderQuery (first :: second :: rest) =
      renderPair first ++ ampersandByte :: renderQuery (second :: rest) := by
  simp [renderQuery, List.intercalate]

theorem renderQuery_append {first second : List (Bytes × Bytes)} (firstNonempty : first ≠ [])
    (secondNonempty : second ≠ []) :
    renderQuery (first ++ second) =
      renderQuery first ++ ampersandByte :: renderQuery second := by
  obtain ⟨next, others, rfl⟩ := List.exists_cons_of_ne_nil secondNonempty
  induction first with
  | nil => exact absurd rfl firstNonempty
  | cons pair rest ih =>
      cases rest with
      | nil =>
          rw [List.cons_append, List.nil_append, renderQuery_cons_cons]
          simp [renderQuery, List.intercalate]
      | cons middle rest =>
          rw [List.cons_append, List.cons_append, renderQuery_cons_cons,
            renderQuery_cons_cons, ← List.cons_append, ih (List.cons_ne_nil _ _)]
          simp

/-- A pair of texts that can stand in a query and decodes to the given
pair. -/
structure Encodes (text decoded : Bytes × Bytes) : Prop where
  key_plain : ampersandByte ∉ text.1 ∧ equalsByte ∉ text.1
  value_plain : ampersandByte ∉ text.2
  key_decodes : percentDecode text.1 = some decoded.1
  value_decodes : percentDecode text.2 = some decoded.2

theorem parsePair_renderPair {text decoded : Bytes × Bytes}
    (encodes : Encodes text decoded) :
    parsePair (renderPair text) = some decoded := by
  unfold parsePair renderPair
  rw [splitFirst_append encodes.key_plain.2]
  simp [encodes.key_decodes, encodes.value_decodes]

theorem Encodes.not_mem_renderPair {text decoded : Bytes × Bytes}
    (encodes : Encodes text decoded) : ampersandByte ∉ renderPair text := by
  have equalsNe : ampersandByte ≠ equalsByte := by decide
  simp [renderPair, encodes.key_plain.1, encodes.value_plain, equalsNe]

theorem parseQuery_renderQuery {texts decoded : List (Bytes × Bytes)}
    (encodes : List.Forall₂ Encodes texts decoded) (nonempty : texts ≠ []) :
    parseQuery (renderQuery texts) = some decoded := by
  have separated : ∀ piece ∈ texts.map renderPair, ampersandByte ∉ piece := by
    clear nonempty
    induction encodes with
    | nil => simp
    | cons head tail ih =>
        rw [List.map_cons, List.forall_mem_cons]
        exact ⟨head.not_mem_renderPair, ih⟩
  unfold parseQuery renderQuery
  rw [List.splitOn_intercalate ampersandByte separated (by simpa using nonempty)]
  clear separated nonempty
  induction encodes with
  | nil => rfl
  | cons head tail ih =>
      rw [List.map_cons, List.mapM_cons, parsePair_renderPair head, ih]
      rfl

end PercentEncoding
