import ExchangeConnectivity.BoundedLoops
import ExchangeConnectivity.StringUtilities

/-!
# Hexadecimal conversions of the utilities

The encoders write two digits for each byte into a string made before the
loop; the decoders read two characters at a time.  A `char` is converted to
`uint8_t` or `unsigned char` before it is used, so both are bytes here.
-/

namespace ExchangeConnectivity

open ByteStrings BoundedLoops StringUtilities

namespace HexConverter

def table : Bytes := ascii "0123456789ABCDEF"

/-- `table[index]`. -/
def tableAt (index : UInt8) : Except StringUtilities.Fault UInt8 :=
  match table[index.toNat]? with
  | some digit => .ok digit
  | none => .error (.outOfTable index.toNat)

structure EncodeState where
  result : Bytes
  pos : Nat

/-- `result[pos++] = table[index]`. -/
def putDigit (state : EncodeState) (index : UInt8) : Except StringUtilities.Fault EncodeState := do
  let digit ← tableAt index
  let result ← setAt state.result state.pos digit
  .ok { result, pos := sizeType (state.pos + 1) }

/-- The two digits of a byte. -/
def putByte (state : EncodeState) (ch : UInt8) : Except StringUtilities.Fault EncodeState := do
  let state ← putDigit state (ch >>> 4)
  putDigit state (ch &&& 0x0F)

/-- `std::string result(len * 2, '0')`, and a position in it. -/
def initialState (len : Nat) : EncodeState where
  result := List.replicate (sizeType (len * 2)) '0'.toUInt8
  pos := 0

def bytesToHex (bytesStr : Bytes) : Except StringUtilities.Fault Bytes := do
  let state ← bytesStr.foldlM putByte (initialState bytesStr.length)
  .ok state.result

/-- `*src`, for a pointer into the memory that begins with these bytes. -/
def read (src : Bytes) : Except StringUtilities.Fault UInt8 :=
  match src with
  | ch :: _ => .ok ch
  | [] => .error (.outOfString 0)

/-- `for (size_t pos = 0; len > 0; --len)`. -/
def encodeLoop : Nat → Bytes → EncodeState → Except StringUtilities.Fault EncodeState
  | 0, _, state => .ok state
  | len + 1, src, state => do
      let ch ← read src
      let state ← putByte state ch
      encodeLoop len src.tail state

/-- `bytesToHexStr(const char*, size_t)`, which reads `*src` before the loop
too. -/
def bytesToHexStr (src : Bytes) (len : Nat) : Except StringUtilities.Fault Bytes := do
  let _ ← read src
  let state ← encodeLoop len src (initialState len)
  .ok state.result

/-- The memory at `data()`, where a null character follows the string. -/
def data (bytesStr : Bytes) : Bytes :=
  bytesStr ++ [0]

def hexCode (symbol : UInt8) : UInt8 :=
  if '0'.toUInt8 ≤ symbol ∧ symbol ≤ '9'.toUInt8 then symbol - '0'.toUInt8
  else if 'A'.toUInt8 ≤ symbol ∧ symbol ≤ 'F'.toUInt8 then symbol - 'A'.toUInt8 + 10
  else if 'a'.toUInt8 ≤ symbol ∧ symbol ≤ 'f'.toUInt8 then symbol - 'a'.toUInt8 + 10
  else 0

/-- `hexValue[index]` of a view, which nothing follows. -/
def viewAt (hexValue : Bytes) (index : Nat) : Except StringUtilities.Fault UInt8 :=
  match hexValue[index]? with
  | some symbol => .ok symbol
  | none => .error (.outOfString index)

def hex2UChar (hexValue : Bytes) : Except StringUtilities.Fault UInt8 := do
  let high ← viewAt hexValue 0
  let low ← viewAt hexValue 1
  .ok (16 * hexCode high + hexCode low)

structure DecodeState where
  i : Nat
  bytes : Bytes

/-- One round of the loop both decoders have. -/
def decodeRound (hexString : Bytes) (state : DecodeState) :
    Except StringUtilities.Fault (ForInStep DecodeState) :=
  if state.i < hexString.length then do
    let hexValue ← substr hexString state.i 2
    let byte ← hex2UChar hexValue
    .ok (.yield { i := sizeType (state.i + 2), bytes := state.bytes ++ [byte] })
  else .ok (.done state)

def decodeLoop (hexString : Bytes) : Except StringUtilities.Fault Bytes := do
  let state ← loop StringUtilities.Fault.unfinished (decodeRound hexString) (rounds hexString)
    { i := 0, bytes := [] }
  .ok state.bytes

/-- The bytes as `uint8_t`. -/
def hex2Bytes (hexString : Bytes) : Except StringUtilities.Fault Bytes :=
  decodeLoop hexString

/-- The bytes as `char`. -/
def hex2BytesString (hexString : Bytes) : Except StringUtilities.Fault Bytes :=
  decodeLoop hexString

end HexConverter

end ExchangeConnectivity
