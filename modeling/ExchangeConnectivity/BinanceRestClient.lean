import ExchangeConnectivity.HttpExchange
import ExchangeConnectivity.MarketDataParser

/-!
# The synchronous depth snapshot request

`binance/binance_rest_client.cpp`: one connection is made for a request, and
the body of its response goes to the unchecked market-data parser.
-/

namespace ExchangeConnectivity

open ByteStrings

namespace BinanceRestClient

open BinanceMarketDataParser (DepthSnapshot)

inductive RestError
  | resolveFailed
  | connectFailed
  | tlsServerNameFailed
  | tlsHandshakeFailed
  | writeFailed
  | readFailed
  | httpError
  | parseFailed
  deriving DecidableEq

/-- How a call ends without a `std::expected`: the write throws the
`boost::system::system_error` of its code, and the parser fails. -/
inductive Exception
  | systemError (errorCode : Bytes)
  | parser (fault : Fault)
  deriving DecidableEq

/-- What the resolver, the stream and the server answer, with the error codes
as text.  An endpoint is an address; a read delivers the status and the
body. -/
structure Network where
  resolve : Bytes → Bytes → Except Bytes (List Bytes)
  connect : List Bytes → Option Bytes
  setServerName : Bytes → Bool
  handshake : Option Bytes
  write : HttpExchange.HttpMessage → Option Bytes
  read : Except Bytes (Nat × Bytes)

section Calls

/-! Boost.Beast, the JSON parser and the network are parameters. -/

variable (beast : HttpExchange.Beast) (simdjson : Simdjson.Library)
  (network : Network)

def depthRequest (host symbol : Bytes) (limit : UInt64) : HttpExchange.HttpMessage :=
  let request : HttpExchange.HttpMessage :=
    { method := .get
      target := ascii "/api/v3/depth?symbol=" ++ symbol ++ ascii "&limit=" ++
        ascii (toString limit.toNat) }
  let request := beast.set request (ascii "Host") host
  beast.set request (ascii "User-Agent") (ascii "hft-binance-connector/1.0")

/-- The part of `getDepthSnapshot` after the write.  The error of the shutdown
that follows a complete read is dropped. -/
def readSnapshot : Except Exception (Except RestError DepthSnapshot) :=
  match network.read with
  | .error _ => .ok (.error .readFailed)
  | .ok (status, body) =>
      if status ≠ 200 then .ok (.error .httpError)
      else
        match BinanceMarketDataParser.parseDepthSnapshot simdjson body with
        | .error fault => .error (.parser fault)
        | .ok snapshot => .ok (.ok snapshot)

/-- The write is the one step before the parse that throws its error code. -/
def getDepthSnapshot (host symbol : Bytes) (limit : UInt64) :
    Except Exception (Except RestError DepthSnapshot) :=
  match network.resolve host (ascii "443") with
  | .error _ => .ok (.error .resolveFailed)
  | .ok endpoints =>
      match network.connect endpoints with
      | some _ => .ok (.error .connectFailed)
      | none =>
          if ¬ network.setServerName host then .ok (.error .tlsServerNameFailed)
          else
            match network.handshake with
            | some _ => .ok (.error .tlsHandshakeFailed)
            | none =>
                match network.write (depthRequest beast host symbol limit) with
                | some errorCode => .error (.systemError errorCode)
                | none => readSnapshot simdjson network

end Calls

end BinanceRestClient

end ExchangeConnectivity
