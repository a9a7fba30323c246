import ExchangeConnectivity.BinanceSpotClient

/-!
# The user data stream

`binance_order_execution_module/main.cpp`: the stream subscribes with a signed
request, which is written as a JSON text by hand.
-/

namespace ExchangeConnectivity

open ByteStrings DecimalNumerals Utilities

structure BinanceUserDataStream where
  apiKey : Bytes
  secretKey : Bytes

namespace BinanceUserDataStream

def recvWindow : Int64 := 5000

/-- What is appended for one character. -/
def escapeCharacter (character : UInt8) : Bytes :=
  if character = '"'.toUInt8 then ascii "\\\""
  else if character = '\\'.toUInt8 then ascii "\\\\"
  else if character = 0x08 then ascii "\\b"
  else if character = 0x0C then ascii "\\f"
  else if character = 0x0A then ascii "\\n"
  else if character = 0x0D then ascii "\\r"
  else if character = 0x09 then ascii "\\t"
  else [character]

def escapeJsonString (value : Bytes) : Bytes :=
  value.flatMap escapeCharacter

/-- `createSignature`; `HMAC` is a parameter as in the spot client. -/
def createSignature (hmac : Bytes → Int32 → Bytes → Option Bytes)
    (payload secretKey : Bytes) : Option Bytes :=
  if 2 ^ 31 - 1 < secretKey.length then none
  else (hmac secretKey (Int32.ofNat secretKey.length) payload).map toHex

/-- `std::to_string`. -/
def toDecimal (value : Int64) : Bytes :=
  signedBytes value.toInt

/-- The local `payload` of `createSubscribeRequest`. -/
def payload (stream : BinanceUserDataStream) (timestamp : Int64) : Bytes :=
  ascii "apiKey=" ++ stream.apiKey ++
    ascii "&recvWindow=" ++ toDecimal recvWindow ++
    ascii "&timestamp=" ++ toDecimal timestamp

/-- The local `request` of `createSubscribeRequest`. -/
def request (stream : BinanceUserDataStream) (timestamp : Int64) (signature : Bytes) : Bytes :=
  ascii "\x7b\"id\":\"1\",\"method\":\"userDataStream.subscribe.signature\",\"params\":\x7b" ++
    ascii "\"apiKey\":\"" ++ escapeJsonString stream.apiKey ++
    ascii "\",\"recvWindow\":" ++ toDecimal recvWindow ++
    ascii ",\"timestamp\":" ++ toDecimal timestamp ++
    ascii ",\"signature\":\"" ++ signature ++
    ascii "\"\x7d\x7d"

def createSubscribeRequest (hmac : Bytes → Int32 → Bytes → Option Bytes)
    (stream : BinanceUserDataStream) (timestamp : Int64) : Option Bytes := do
  let signature ← createSignature hmac (stream.payload timestamp) stream.secretKey
  some (stream.request timestamp signature)

end BinanceUserDataStream

end ExchangeConnectivity
