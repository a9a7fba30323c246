import ExchangeConnectivity.BoundedLoops
import ExchangeConnectivity.StringUtilities

/-!
# Splitting functions of the utilities

The two functions `split` and the function `split_to` cut a string at
delimiters, and `stringToChunks` cuts it into chunks of one size.  The search
loop of the second `split` and of `split_to` may go on for ever, so these take
a number of rounds after which the loop is given up.
-/

namespace ExchangeConnectivity

open ByteStrings BoundedLoops

namespace StringUtilities

/-- The lowest position from `position` on, up to the end of the string, that
passes the test. -/
def searchFrom (test : Nat → Bool) (str : Bytes) (position : Nat) : Nat :=
  ((List.range' position (str.length + 1 - position)).find? test).getD npos

/-- `str.find(needle, position)`. -/
def find (str needle : Bytes) (position : Nat) : Nat :=
  searchFrom (fun index => needle.isPrefixOf (str.drop index)) str position

/-- `str.find_first_of(set, position)`. -/
def findFirstOf (str set : Bytes) (position : Nat) : Nat :=
  searchFrom (fun index => str[index]?.any fun character => set.contains character) str position

structure SplitState where
  first : Nat
  output : List Bytes

/-- One round of the loop of the first `split`. -/
def splitRound (input delimiter : Bytes) (state : SplitState) :
    Except Fault (ForInStep SplitState) :=
  if state.first < input.length then do
    let second := findFirstOf input delimiter state.first
    let output ←
      if state.first ≠ second then do
        let part ← substr input state.first (sizeType (second - state.first))
        pure (state.output ++ [part])
      else pure state.output
    if second = npos then .ok (.done { state with output })
    else .ok (.yield { first := sizeType (second + 1), output })
  else .ok (.done state)

/-- `split(std::string_view, std::string_view)`. -/
def split (input delimiter : StdString) : Except Fault (List Bytes) := do
  let state ← loop Fault.unfinished (splitRound input.bytes delimiter.bytes) (rounds input.bytes)
    { first := 0, output := [] }
  .ok state.output

/-- `max_size()` of a `std::vector<std::string>`, in libstdc++. -/
def maxSize : Nat :=
  (2 ^ 63 - 1) / 32

/-- `parts.reserve(count)` of an empty vector; `allocates` tells for how many
strings there is memory. -/
def reserve (allocates : Nat → Bool) (count : Nat) : Except Fault Unit :=
  if count > maxSize then .error .lengthError
  else if count = 0 ∨ allocates count then .ok ()
  else .error .badAlloc

structure SearchState where
  prev : Nat
  parts : List Bytes

/-- One round of the search loop of the second `split` and of `split_to`, which
make a part from a position and a length in ways of their own. -/
def searchRound (part : Nat → Nat → Except Fault Bytes) (str delimiter : Bytes)
    (state : SearchState) : Except Fault (ForInStep SearchState) := do
  let pos := find str delimiter state.prev
  if pos ≠ npos then do
    let found ← part state.prev (sizeType (pos - state.prev))
    .ok (.yield
      { prev := sizeType (pos + delimiter.length)
        parts := state.parts ++ [found] })
  else .ok (.done state)

/-- The search loop, and the part after it. -/
def searchParts (rounds : Nat) (part : Nat → Nat → Except Fault Bytes) (str delimiter : Bytes) :
    Except Fault (List Bytes) := do
  let state ← loop Fault.unfinished (searchRound part str delimiter) rounds
    { prev := 0, parts := [] }
  let rest ← part state.prev (sizeType (str.length - state.prev))
  .ok (state.parts ++ [rest])

/-- `split(const std::string&, size_t, const std::string&)`, given up after a
number of rounds.  A part is the string `{str, prev, length}`. -/
def splitExpecting (allocates : Nat → Bool) (rounds : Nat) (str : StdString)
    (partsExpected : Nat) (delimiter : StdString) : Except Fault (List Bytes) := do
  reserve allocates partsExpected
  searchParts rounds (substr str.bytes) str.bytes delimiter.bytes

/-- `split_to`, given up after a number of rounds: the parts it is given are
cleared, and a part is the view `{str.data() + prev, length}`. -/
def splitTo (rounds : Nat) (str : StdString) (_parts : List Bytes) (delimiter : StdString) :
    Except Fault (List Bytes) :=
  searchParts rounds (stringView str.bytes) str.bytes delimiter.bytes

structure ChunkState where
  prev : Nat
  chunks : List Bytes

/-- The element `{str.begin() + first, str.begin() + last}` of a vector. -/
def between (str : Bytes) (first last : Nat) : Except Fault Bytes :=
  stringView str first (sizeType (last - first))

/-- The body of the loop over `idx`.  The indices are `int64_t` values between
zero and the size, so their difference does not overflow. -/
def chunkRound (str : Bytes) (chunkSize : Int64) (state : ChunkState) (idx : Nat) :
    Except Fault ChunkState :=
  if chunkSize.toInt = (idx : Int) - state.prev then do
    let chunk ← between str state.prev idx
    .ok { prev := idx, chunks := state.chunks ++ [chunk] }
  else .ok state

/-- `stringToChunks`, for any type of chunks that holds the characters between
two iterators. -/
def stringToChunks (str : StdString) (chunkSize : Int64) : Except Fault (List Bytes) := do
  let state ← (List.range str.bytes.length).foldlM (chunkRound str.bytes chunkSize)
    { prev := 0, chunks := [] }
  let last ← between str.bytes state.prev str.bytes.length
  .ok (state.chunks ++ [last])

end StringUtilities

end ExchangeConnectivity
