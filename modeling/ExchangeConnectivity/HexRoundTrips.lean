import ExchangeConnectivity.HexConverter
import ExchangeConnectivity.PercentEncoding

/-!
# Round trips of the hexadecimal conversions

Both encoders write the upper-case digits of the bytes, and both decoders read
any string of pairs of digits.  So decoding inverts encoding, and encoding what
has been decoded gives the digits in upper case.
-/

namespace ExchangeConnectivity

open ByteStrings BoundedLoops FailingComputations PercentEncoding StringUtilities

namespace HexConverter

theorem tableAt_eq {index : UInt8} (bound : index.toNat < 16) :
    tableAt index = .ok (upperHexDigit index.toNat) := by
  have all : ∀ digit : Fin 16, tableAt (UInt8.ofNat digit.val) =
      .ok (upperHexDigit digit.val) := by
    decide +kernel
  have atIndex := all ⟨index.toNat, bound⟩
  rwa [UInt8.ofNat_toNat] at atIndex

/-- The state of an encoder that has written these digits of so many. -/
def written (total : Nat) (digits : Bytes) : EncodeState where
  result := digits ++ List.replicate (total - digits.length) '0'.toUInt8
  pos := digits.length

section Encoding

variable {total : Nat} {digits : Bytes}

theorem set_written (inside : digits.length < total) (digit : UInt8) :
    (written total digits).result.set digits.length digit =
      (written total (digits ++ [digit])).result := by
  obtain ⟨left, leftEq⟩ : ∃ left, total - digits.length = left + 1 :=
    ⟨total - digits.length - 1, by omega⟩
  have leftNext : total - (digits ++ [digit]).length = left := by
    rw [List.length_append, List.length_singleton]
    omega
  simp only [written, leftEq, leftNext, List.set_append_right _ _ (Nat.le_refl digits.length),
    Nat.sub_self, List.replicate_succ, List.set_cons_zero, List.append_assoc,
    List.singleton_append]

theorem putDigit_written (bound : total < 2 ^ 64) (inside : digits.length < total)
    {index : UInt8} (isDigit : index.toNat < 16) :
    putDigit (written total digits) index =
      .ok (written total (digits ++ [upperHexDigit index.toNat])) := by
  have position : (written total digits).pos = digits.length := rfl
  have next : sizeType ((digits.length : Int) + 1) = digits.length + 1 :=
    sizeType_eq (by omega) (by omega)
  have within : digits.length < (written total digits).result.length := by
    simp only [written, List.length_append, List.length_replicate]
    omega
  rw [putDigit, tableAt_eq isDigit, ok_bind, setAt, position, if_pos within, ok_bind, next,
    set_written inside, ← List.length_singleton, ← List.length_append]
  rfl

theorem putByte_written (bound : total < 2 ^ 64) (inside : digits.length + 2 ≤ total)
    (ch : UInt8) :
    putByte (written total digits) ch = .ok (written total (digits ++ hexPair ch)) := by
  have range := ch.toNat_lt
  have high : (ch >>> 4).toNat = ch.toNat / 16 := by
    simp [UInt8.toNat_shiftRight, Nat.shiftRight_eq_div_pow]
  have low : (ch &&& 0x0F).toNat = ch.toNat % 16 := by
    rw [UInt8.toNat_and]
    exact Nat.and_two_pow_sub_one_eq_mod ch.toNat 4
  have longer : (digits ++ [upperHexDigit (ch.toNat / 16)]).length < total := by
    rw [List.length_append, List.length_singleton]
    omega
  rw [putByte, putDigit_written bound (by omega) (by omega), ok_bind, high,
    putDigit_written bound longer (by omega), low, List.append_assoc]
  rfl

theorem foldlM_putByte {bytes : Bytes} (bound : bytes.length < 2 ^ 63) :
    bytes.foldlM putByte (initialState bytes.length) =
      .ok (written (2 * bytes.length) (upperHex bytes)) := by
  have size : sizeType ((bytes.length : Int) * 2) = 2 * bytes.length :=
    sizeType_eq (by omega) (by omega)
  have initial : initialState bytes.length = written (2 * bytes.length) (upperHex []) := by
    rw [initialState, size]
    rfl
  have keeps (before : Bytes) (ch : UInt8) (after : Bytes) (split : bytes = before ++ ch :: after)
      (state : EncodeState) (stateEq : state = written (2 * bytes.length) (upperHex before)) :
      ∃ next, putByte state ch = .ok next ∧
        next = written (2 * bytes.length) (upperHex (before ++ [ch])) := by
    have length := congrArg List.length split
    rw [List.length_append, List.length_cons] at length
    have inside : (upperHex before).length + 2 ≤ 2 * bytes.length := by
      rw [length_upperHex]
      omega
    have longer : upperHex (before ++ [ch]) = upperHex before ++ hexPair ch := by
      rw [upperHex, List.flatMap_append, List.flatMap_singleton]
      rfl
    rw [stateEq, longer]
    exact ⟨_, putByte_written (by omega) inside ch, rfl⟩
  obtain ⟨final, run, finalEq⟩ := foldlM_rule keeps initial
  rw [run, finalEq]

theorem written_result (bytes : Bytes) :
    (written (2 * bytes.length) (upperHex bytes)).result = upperHex bytes := by
  rw [written, length_upperHex, Nat.sub_self, List.replicate_zero, List.append_nil]

theorem bytesToHex_eq {bytes : Bytes} (bound : bytes.length < 2 ^ 63) :
    bytesToHex bytes = .ok (upperHex bytes) := by
  rw [bytesToHex, foldlM_putByte bound, ok_bind, written_result]

/-- The loop over a pointer and a length is the loop over the bytes there. -/
theorem encodeLoop_eq_foldlM (bytes rest : Bytes) (state : EncodeState) :
    encodeLoop bytes.length (bytes ++ rest) state = bytes.foldlM putByte state := by
  induction bytes generalizing state with
  | nil => rfl
  | cons ch bytes ih =>
      rw [List.length_cons, encodeLoop, List.foldlM_cons, List.cons_append, read, ok_bind,
        List.tail_cons]
      exact congrArg _ (funext ih)

theorem bytesToHexStr_eq {bytes : Bytes} (bound : bytes.length < 2 ^ 63) :
    bytesToHexStr (data bytes) bytes.length = .ok (upperHex bytes) := by
  have first : ∃ ch, read (data bytes) = .ok ch := by
    cases bytes with
    | nil => exact ⟨0, rfl⟩
    | cons ch bytes => exact ⟨ch, rfl⟩
  obtain ⟨ch, run⟩ := first
  rw [bytesToHexStr, run, ok_bind, data, encodeLoop_eq_foldlM, foldlM_putByte bound, ok_bind,
    written_result]

end Encoding

/-- The byte of two hexadecimal digits. -/
def byteOf (high low : UInt8) : UInt8 :=
  16 * hexCode high + hexCode low

/-- The bytes of pairs of hexadecimal digits. -/
def bytesOf : Bytes → Bytes
  | high :: low :: rest => byteOf high low :: bytesOf rest
  | _ => []

theorem decodeRound_pair {hexString rest : Bytes} {state : DecodeState} {high low : UInt8}
    (bound : hexString.length < 2 ^ 64)
    (pair : hexString.drop state.i = high :: low :: rest) :
    decodeRound hexString state =
      .ok (.yield { i := state.i + 2, bytes := state.bytes ++ [byteOf high low] }) := by
  have length := congrArg List.length pair
  simp only [List.length_drop, List.length_cons] at length
  have next : sizeType ((state.i : Int) + 2) = state.i + 2 := sizeType_eq (by omega) (by omega)
  rw [decodeRound, if_pos (by omega), substr, if_pos (by omega), pair, ok_bind, next]
  rfl

/-- What every round keeps: the bytes of the pairs up to `i` have been read, and
pairs are left. -/
def Decoding (hexString : Bytes) (state : DecodeState) : Prop :=
  (hexString.drop state.i).length % 2 = 0 ∧
    state.bytes ++ bytesOf (hexString.drop state.i) = bytesOf hexString

theorem decodeRound_cases {hexString : Bytes} (bound : hexString.length < 2 ^ 64)
    (state : DecodeState) (decoding : Decoding hexString state) :
    (∃ next, decodeRound hexString state = .ok (.yield next) ∧ Decoding hexString next ∧
        (hexString.drop next.i).length < (hexString.drop state.i).length) ∨
      ∃ final, decodeRound hexString state = .ok (.done final) ∧
        final.bytes = bytesOf hexString := by
  obtain ⟨even, bytesEq⟩ := decoding
  cases left : hexString.drop state.i with
  | nil =>
      have atEnd := List.drop_eq_nil_iff.mp left
      have nothing : bytesOf [] = [] := rfl
      rw [left, nothing, List.append_nil] at bytesEq
      exact .inr ⟨state, if_neg (Nat.not_lt_of_le atEnd), bytesEq⟩
  | cons high others =>
      cases others with
      | nil =>
          rw [left] at even
          cases even
      | cons low rest =>
          have rest_eq : hexString.drop (state.i + 2) = rest := by
            rw [← List.drop_drop, left]
            rfl
          refine .inl ⟨_, decodeRound_pair bound left, ⟨?_, ?_⟩, ?_⟩
          · show (hexString.drop (state.i + 2)).length % 2 = 0
            rw [left, List.length_cons, List.length_cons] at even
            rw [rest_eq]
            omega
          · show state.bytes ++ [byteOf high low] ++ bytesOf (hexString.drop (state.i + 2)) = _
            rw [rest_eq, ← bytesEq, left, bytesOf, List.append_assoc]
            rfl
          · show (hexString.drop (state.i + 2)).length < _
            rw [rest_eq, List.length_cons, List.length_cons]
            omega

theorem decodeLoop_eq {hexString : Bytes} (bound : hexString.length < 2 ^ 64)
    (even : hexString.length % 2 = 0) : decodeLoop hexString = .ok (bytesOf hexString) := by
  have initial : Decoding hexString { i := 0, bytes := [] } := ⟨even, rfl⟩
  obtain ⟨final, run, finalEq⟩ := loop_rule (decodeRound_cases bound) initial
    (show hexString.length < rounds hexString from Nat.lt_succ_self _)
  rw [decodeLoop, run, ok_bind, finalEq]

theorem hexCode_upperHexDigit {nibble : Nat} (bound : nibble < 16) :
    (hexCode (upperHexDigit nibble)).toNat = nibble := by
  have all : ∀ digit : Fin 16, (hexCode (upperHexDigit digit.val)).toNat = digit.val := by
    decide
  exact all ⟨nibble, bound⟩

theorem byteOf_hexPair (byte : UInt8) :
    byteOf (upperHexDigit (byte.toNat / 16)) (upperHexDigit (byte.toNat % 16)) = byte := by
  have range := byte.toNat_lt
  apply UInt8.toNat_inj.mp
  rw [byteOf, UInt8.toNat_add, UInt8.toNat_mul, hexCode_upperHexDigit (by omega),
    hexCode_upperHexDigit (by omega)]
  show (16 * (byte.toNat / 16) % 256 + byte.toNat % 16) % 256 = byte.toNat
  omega

theorem bytesOf_upperHex (bytes : Bytes) : bytesOf (upperHex bytes) = bytes := by
  induction bytes with
  | nil => rfl
  | cons byte bytes ih =>
      rw [upperHex, List.flatMap_cons, ← upperHex]
      show byteOf _ _ :: bytesOf (upperHex bytes) = _
      rw [byteOf_hexPair, ih]

/-- A hexadecimal digit, in either case. -/
def IsHexDigit (symbol : UInt8) : Prop :=
  (hexDigitValue symbol).isSome

instance (symbol : UInt8) : Decidable (IsHexDigit symbol) :=
  inferInstanceAs (Decidable ((hexDigitValue symbol).isSome = true))

/-- `std::toupper` in the C locale, on each byte. -/
def toUpper (value : Bytes) : Bytes :=
  value.map fun byte => if 'a'.toUInt8 ≤ byte ∧ byte ≤ 'z'.toUInt8 then byte - 32 else byte

/-- The code of a digit is that of the digit in upper case. -/
theorem upperHexDigit_hexCode {symbol : UInt8} (isDigit : IsHexDigit symbol) :
    (hexCode symbol).toNat < 16 ∧ [upperHexDigit (hexCode symbol).toNat] = toUpper [symbol] := by
  have all : ∀ code : Fin 256, IsHexDigit (UInt8.ofNat code.val) →
      (hexCode (UInt8.ofNat code.val)).toNat < 16 ∧
        [upperHexDigit (hexCode (UInt8.ofNat code.val)).toNat] =
          toUpper [UInt8.ofNat code.val] := by
    decide +kernel
  have atCode := all ⟨symbol.toNat, symbol.toNat_lt⟩
  rw [UInt8.ofNat_toNat] at atCode
  exact atCode isDigit

theorem hexPair_byteOf {high low : UInt8} (highDigit : IsHexDigit high)
    (lowDigit : IsHexDigit low) : hexPair (byteOf high low) = toUpper [high, low] := by
  obtain ⟨highBound, highUpper⟩ := upperHexDigit_hexCode highDigit
  obtain ⟨lowBound, lowUpper⟩ := upperHexDigit_hexCode lowDigit
  have value : (byteOf high low).toNat = 16 * (hexCode high).toNat + (hexCode low).toNat := by
    rw [byteOf, UInt8.toNat_add, UInt8.toNat_mul]
    show (16 * (hexCode high).toNat % 256 + (hexCode low).toNat) % 256 = _
    omega
  have highEq : (byteOf high low).toNat / 16 = (hexCode high).toNat := by omega
  have lowEq : (byteOf high low).toNat % 16 = (hexCode low).toNat := by omega
  rw [hexPair, highEq, lowEq]
  exact congrArg₂ (· ++ ·) highUpper lowUpper

theorem upperHex_bytesOf {digits : Bytes} (even : digits.length % 2 = 0)
    (isDigit : ∀ symbol ∈ digits, IsHexDigit symbol) :
    upperHex (bytesOf digits) = toUpper digits := by
  induction digits using bytesOf.induct with
  | case1 high low rest ih =>
      simp only [List.forall_mem_cons] at isDigit
      obtain ⟨highDigit, lowDigit, restDigits⟩ := isDigit
      rw [List.length_cons, List.length_cons] at even
      rw [bytesOf, upperHex, List.flatMap_cons, ← upperHex, ih (by omega) restDigits,
        hexPair_byteOf highDigit lowDigit]
      rfl
  | case2 digits short =>
      cases digits with
      | nil => rfl
      | cons high others =>
          cases others with
          | nil => cases even
          | cons low rest => exact absurd rfl (short high low rest)

theorem length_bytesOf_le (digits : Bytes) : (bytesOf digits).length ≤ digits.length := by
  induction digits using bytesOf.induct with
  | case1 high low rest ih =>
      simp only [bytesOf, List.length_cons]
      omega
  | case2 digits short => rw [bytesOf]; exact Nat.zero_le _; exact short

/-- Decoding inverts both encoders on every byte string, and encoding inverts
decoding up to the case of the digits. -/
theorem hex_round_trips (b h : StdString) :
    (bytesToHex b.bytes >>= hex2Bytes) = .ok b.bytes ∧
      (bytesToHex b.bytes >>= hex2BytesString) = .ok b.bytes ∧
      (bytesToHexStr (data b.bytes) b.bytes.length >>= hex2Bytes) = .ok b.bytes ∧
      (h.bytes.length % 2 = 0 → (∀ symbol ∈ h.bytes, IsHexDigit symbol) →
        (hex2BytesString h.bytes >>= bytesToHex) = .ok (toUpper h.bytes)) := by
  have length := length_upperHex b.bytes
  have bound := b.length_lt
  have decoded : decodeLoop (upperHex b.bytes) = .ok b.bytes := by
    rw [decodeLoop_eq (by omega) (by omega), bytesOf_upperHex]
  have shorter := length_bytesOf_le h.bytes
  have hBound := h.length_lt
  refine ⟨?_, ?_, ?_, ?_⟩
  · rw [bytesToHex_eq bound]
    exact decoded
  · rw [bytesToHex_eq bound]
    exact decoded
  · rw [bytesToHexStr_eq bound]
    exact decoded
  · intro even isDigit
    rw [hex2BytesString, decodeLoop_eq (by omega) even, ok_bind, bytesToHex_eq (by omega),
      upperHex_bytesOf even isDigit]

theorem hex_round_trips_mixed_case :
    (hex2BytesString (ascii "c0FFee09") >>= bytesToHex) = .ok (ascii "C0FFEE09") :=
  (hex_round_trips ⟨[0x00, 0x7F, 0x80, 0xFF], by decide⟩
    ⟨ascii "c0FFee09", by decide⟩).2.2.2 rfl
    (List.all_eq_true.mp
      (show (ascii "c0FFee09").all (fun symbol => (hexDigitValue symbol).isSome) = true from rfl))

end HexConverter

end ExchangeConnectivity
