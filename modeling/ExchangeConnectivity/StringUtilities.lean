import ExchangeConnectivity.ByteStrings
import ExchangeConnectivity.FailingComputations
import ExchangeConnectivity.Trimming
import Mathlib.Algebra.Group.Int.Defs
import Mathlib.Algebra.Group.Nat.Defs

/-!
# Trimming functions of the utilities

The functions `trim_1`, `trim_2`, `trim_3`, `trim`, `strip` and `strip_fast`
find the ends of a string with unsigned indices.  Sizes wrap modulo 2^64, or
2^32 in `strip_fast`, and an access outside a string or the character table
is a fault.
-/

namespace ExchangeConnectivity

open ByteStrings Trimming

/-- A `std::string`, whose length is below 2^63. -/
structure StdString where
  bytes : Bytes
  length_lt : bytes.length < 2 ^ 63

namespace StringUtilities

/-- How a function can leave defined behaviour, or fail: `str[index]`,
`TBL[index]`, a position after the end in `substr` and `erase`, a view
beyond the end, and `reserve` for more elements than a vector can have or than
there is memory for. -/
inductive Fault
  | outOfString (index : Nat)
  | outOfTable (index : Nat)
  | outOfRange
  | outsideView (start length : Nat)
  | lengthError
  | badAlloc
  | unfinished
  deriving DecidableEq

/-- A value of `std::size_t`. -/
def sizeType (value : Int) : Nat :=
  (value % 2 ^ 64).toNat

/-- A value of `uint32_t`. -/
def uint32 (value : Int) : Nat :=
  (value % 2 ^ 32).toNat

def npos : Nat := sizeType (-1)

theorem sizeType_of_lt {value : Int} (nonnegative : 0 ≤ value) (bound : value < 2 ^ 64) :
    sizeType value = value.toNat := by
  rw [sizeType, Int.emod_eq_of_lt nonnegative bound]

theorem sizeType_eq {value : Int} {size : Nat} (equal : value = size) (bound : size < 2 ^ 64) :
    sizeType value = size := by
  rw [equal, sizeType_of_lt (by omega) (by omega), Int.toNat_natCast]

theorem uint32_of_lt {value : Int} (nonnegative : 0 ≤ value) (bound : value < 2 ^ 32) :
    uint32 value = value.toNat := by
  rw [uint32, Int.emod_eq_of_lt nonnegative bound]

/-- `str[index]`; the position after the last character holds `'\0'`. -/
def charAt (str : Bytes) (index : Nat) : Except Fault UInt8 :=
  if index = str.length then .ok 0
  else
    match str[index]? with
    | some character => .ok character
    | none => .error (.outOfString index)

/-- `str[index] = character`. -/
def setAt (str : Bytes) (index : Nat) (character : UInt8) : Except Fault Bytes :=
  if index < str.length then .ok (str.set index character) else .error (.outOfString index)

def substr (str : Bytes) (position count : Nat) : Except Fault Bytes :=
  if position ≤ str.length then .ok ((str.drop position).take count)
  else .error .outOfRange

def erase (str : Bytes) (position count : Nat) : Except Fault Bytes :=
  if position ≤ str.length then .ok (str.take position ++ str.drop (position + count))
  else .error .outOfRange

def findFirstNotOf (str : Bytes) (character : UInt8) : Nat :=
  (str.findIdx? fun other => other != character).getD npos

def resize (str : Bytes) (size : Nat) : Bytes :=
  str.take size ++ List.replicate (size - str.length) 0

/-- `std::string_view{str.data() + start, length}`. -/
def stringView (str : Bytes) (start length : Nat) : Except Fault Bytes :=
  if start + length ≤ str.length then .ok ((str.drop start).take length)
  else .error (.outsideView start length)

/-- The number of rounds after which a loop over the string is given up. -/
def rounds (str : Bytes) : Nat :=
  str.length + 1

/-- `while (length > start && matched(str[start])) ++start`. -/
def scanStart (matched : UInt8 → Bool) (str : Bytes) : Except Fault Nat :=
  scan Fault.unfinished
    (fun start => if str.length > start then matched <$> charAt str start else .ok false)
    (fun start => sizeType (start + 1)) (rounds str) 0

/-- `while (end && matched(str[end])) --end`. -/
def scanEnd (matched : UInt8 → Bool) (str : Bytes) (last : Nat) : Except Fault Nat :=
  scan Fault.unfinished
    (fun last => if last ≠ 0 then matched <$> charAt str last else .ok false)
    (fun last => sizeType (last - 1)) (rounds str) last

/-- `for (; end > 0 && str[--end] == ' '; )`. -/
def scanTrailing (str : Bytes) : Nat → Except Fault Nat
  | 0 => .ok 0
  | last + 1 => do
      let character ← charAt str last
      if character = ' '.toUInt8 then scanTrailing str last else .ok last

/-- The common body of `trim_3` and `strip`. -/
def eraseEnds (matched : UInt8 → Bool) (str : Bytes) : Except Fault Bytes := do
  let length := str.length
  let start ← scanStart matched str
  let str ← erase str 0 start
  let last ← scanEnd matched str (sizeType (length - start - 1))
  erase str (sizeType (last + 1)) (sizeType (length - start - last))

def isSpace (character : UInt8) : Bool :=
  character == ' '.toUInt8

def trim1 (str : StdString) : Except Fault Bytes := do
  let first ← scanStart isSpace str.bytes
  let last ← scanTrailing str.bytes str.bytes.length
  substr str.bytes first (sizeType (last - first + 1))

def trim2 (str : StdString) : Except Fault Bytes := do
  let str ← erase str.bytes 0 (findFirstNotOf str.bytes ' '.toUInt8)
  let str := str.reverse
  let str ← erase str 0 (findFirstNotOf str ' '.toUInt8)
  .ok str.reverse

def trim3 (str : StdString) : Except Fault Bytes :=
  eraseEnds isSpace str.bytes

def trim (str : StdString) : Except Fault Bytes := do
  let start ← scanStart isSpace str.bytes
  let last ← scanEnd isSpace str.bytes (sizeType (str.bytes.length - 1))
  stringView str.bytes start (sizeType (last - start + 1))

def symbols : Bytes :=
  [' '.toUInt8, '\t'.toUInt8, '\n'.toUInt8, '\r'.toUInt8, '\n'.toUInt8]

def strip (str : StdString) : Except Fault Bytes :=
  eraseEnds (fun character => symbols.any fun symbol => symbol == character) str.bytes

/-- `tmp[c] = 1` for the four characters. -/
def tbl : List UInt8 :=
  ['\t', '\n', '\r', ' '].foldl (fun tmp c => tmp.set c.toNat 1) (List.replicate 256 0)

/-- A `char` as an index: it is signed, and converted to `std::size_t`. -/
def charIndex (character : UInt8) : Nat :=
  sizeType (if character < 128 then character.toNat else character.toNat - 256)

/-- `1 == TBL[character]`. -/
def inTbl (character : UInt8) : Except Fault Bool :=
  match tbl[charIndex character]? with
  | some entry => .ok (1 == entry)
  | none => .error (.outOfTable (charIndex character))

/-- `for (; left <= right; ++left, ++idx) str[idx] = str[left]`. -/
def shiftLoop : Nat → Bytes → Nat → Nat → Nat → Except Fault (Bytes × Nat)
  | 0, _, _, _, _ => .error .unfinished
  | rounds + 1, str, idx, left, right =>
      if left ≤ right then do
        let character ← charAt str left
        let str ← setAt str idx character
        shiftLoop rounds str (uint32 (idx + 1)) (uint32 (left + 1)) right
      else .ok (str, idx)

/-- `for (; left <= right && 1 == TBL[str[left]]; ++left)`. -/
def scanLeft (str : Bytes) (right : Nat) : Except Fault Nat :=
  scan Fault.unfinished
    (fun left => if left ≤ right then charAt str left >>= inTbl else .ok false)
    (fun left => uint32 (left + 1)) (rounds str) 0

/-- `for (; right >= left && 1 == TBL[str[right]]; --right)`. -/
def scanRight (str : Bytes) (left right : Nat) : Except Fault Nat :=
  scan Fault.unfinished
    (fun right => if right ≥ left then charAt str right >>= inTbl else .ok false)
    (fun right => uint32 (right - 1)) (rounds str) right

def stripFast (str : StdString) : Except Fault Bytes := do
  let right := uint32 (sizeType (str.bytes.length - 1))
  let left ← scanLeft str.bytes right
  let right ← scanRight str.bytes left right
  let (shifted, idx) ← shiftLoop (rounds str.bytes) str.bytes 0 left right
  .ok (resize shifted idx)

end StringUtilities

end ExchangeConnectivity
