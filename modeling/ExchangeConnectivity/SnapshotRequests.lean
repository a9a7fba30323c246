import ExchangeConnectivity.ActionRuns
import ExchangeConnectivity.ConnectorParser
import ExchangeConnectivity.HttpExchange

/-!
# Depth snapshots of the connector

`binance_connector/networking/rest_client.cpp` and the snapshot methods of
`binance_connector/binance/connector.cpp`: each `asyncSnapshot` makes a request
of its own, whose response is parsed and handed to the handler of the call.
-/

namespace ExchangeConnectivity

open ActionRuns ByteStrings

namespace Connector

namespace Snapshots

inductive RestError
  | resolveFailed
  | connectFailed
  | tlsHandshakeFailed
  | writeFailed
  | readFailed
  | invalidResponse
  deriving DecidableEq

structure RestFailure where
  error : RestError := .invalidResponse
  message : Bytes
  deriving DecidableEq

/-- The body of a response, or the failure of the request. -/
abbrev Response := Except RestFailure Bytes

inductive Operation
  | resolve
  | connect
  | tlsHandshake
  | write
  | read
  deriving DecidableEq

/-- The completion of an operation, with the message of its error; a read
delivers the status and the body. -/
inductive Completion
  | resolve (error : Option Bytes)
  | connect (error : Option Bytes) (serverNameSet : Bool)
  | tlsHandshake (error : Option Bytes)
  | write (error : Option Bytes)
  | read (result : Except Bytes (Nat × Bytes))

def Completion.operation : Completion → Operation
  | .resolve _ => .resolve
  | .connect _ _ => .connect
  | .tlsHandshake _ => .tlsHandshake
  | .write _ => .write
  | .read _ => .read

def toUpper (value : Bytes) : Bytes :=
  value.map fun character =>
    if 'a'.toUInt8 ≤ character ∧ character ≤ 'z'.toUInt8 then
      character - 'a'.toUInt8 + 'A'.toUInt8
    else character

/-- A `SnapshotRequest` with the operation it has outstanding.  `result` keeps
what its handler has been called with. -/
structure SnapshotRequest where
  symbol : Bytes
  request : Option HttpExchange.HttpMessage := none
  completed : Bool := false
  outstanding : Option Operation := none
  result : Option Response := none
  deriving DecidableEq

def newRequest (symbol : Bytes) : SnapshotRequest :=
  { symbol := toUpper symbol }

def SnapshotRequest.start (request : SnapshotRequest) : SnapshotRequest :=
  { request with outstanding := some .resolve }

/-- The handler of the request is called unless it has been before. -/
def SnapshotRequest.finish (request : SnapshotRequest) (result : Response) :
    SnapshotRequest × Option Response :=
  if request.completed then (request, none)
  else ({ request with completed := true, result := some result }, some result)

def SnapshotRequest.fail (request : SnapshotRequest) (error : RestError) (message : Bytes) :
    SnapshotRequest × Option Response :=
  request.finish (.error { error, message })

def SnapshotRequest.onConnected (request : SnapshotRequest) (serverNameSet : Bool) :
    SnapshotRequest × Option Response :=
  if ¬ serverNameSet then
    request.fail .tlsHandshakeFailed (ascii "Failed to configure TLS SNI")
  else ({ request with outstanding := some .tlsHandshake }, none)

def SnapshotRequest.sendRequest (beast : HttpExchange.Beast) (request : SnapshotRequest) :
    SnapshotRequest × Option Response :=
  let message : HttpExchange.HttpMessage :=
    { method := .get
      target := ascii "/api/v3/depth?symbol=" ++ request.symbol ++ ascii "&limit=1000" }
  let message := beast.set message (ascii "Host") (ascii "api.binance.com")
  let message := beast.set message (ascii "User-Agent") (ascii "BinanceConnector/1.0")
  let message := beast.set message (ascii "Accept") (ascii "application/json")
  ({ request with request := some message, outstanding := some .write }, none)

def SnapshotRequest.readResponse (request : SnapshotRequest) :
    SnapshotRequest × Option Response :=
  ({ request with outstanding := some .read }, none)

/-- The callbacks, with what they call the handler of the request with. -/
def SnapshotRequest.callback (beast : HttpExchange.Beast) (request : SnapshotRequest) :
    Completion → SnapshotRequest × Option Response
  | .resolve (some error) => request.fail .resolveFailed error
  | .resolve none => ({ request with outstanding := some .connect }, none)
  | .connect (some error) _ => request.fail .connectFailed error
  | .connect none serverNameSet => request.onConnected serverNameSet
  | .tlsHandshake (some error) => request.fail .tlsHandshakeFailed error
  | .tlsHandshake none => request.sendRequest beast
  | .write (some error) => request.fail .writeFailed error
  | .write none => request.readResponse
  | .read (.error error) => request.fail .readFailed error
  | .read (.ok (status, body)) =>
      if status ≠ 200 then
        request.fail .invalidResponse
          (ascii ("HTTP status " ++ toString status ++ ": ") ++ body)
      else request.finish (.ok body)

/-- What a `SnapshotHandler` is called with. -/
abbrev Argument := Except RestFailure Snapshot

/-- What a handler does when it is called: it returns, or throws a
`std::exception` or something else. -/
inductive Behaviour
  | returns
  | throws (what : Bytes)
  | throwsOther
  deriving DecidableEq

/-- Handlers depend on the calls of handlers so far, each with the call of
`asyncSnapshot` it belongs to, on their own call and on the argument. -/
abbrev Handlers := List (Nat × Argument) → Nat → Argument → Behaviour

section Responses

/-! Boost.Beast, `boost::json::boost`, the text of an exception and the handlers
are parameters. -/

variable (beast : HttpExchange.Beast) (boost : BoostJson.Library)
  (what : Fault → Bytes) (handlers : Handlers)

/-- The calls of the handler, appended to those so far. -/
def onSnapshotResponse (invocations : List (Nat × Argument)) (call : Nat) (response : Response) :
    List (Nat × Argument) :=
  match response with
  | .error failure => invocations ++ [(call, .error failure)]
  | .ok body =>
      match parseSnapshot boost body with
      | .error fault =>
          invocations ++ [(call, .error { error := .invalidResponse, message := what fault })]
      | .ok snapshot =>
          let called := invocations ++ [(call, .ok snapshot)]
          match handlers invocations call (.ok snapshot) with
          | .throws message =>
              called ++ [(call, .error { error := .invalidResponse, message })]
          | .returns | .throwsOther => called

/-- The snapshot requests of a connector, in the order of the calls. -/
structure State where
  symbol : Bytes
  requests : List SnapshotRequest := []
  invocations : List (Nat × Argument) := []

def asyncSnapshot (state : State) : State :=
  { state with requests := state.requests ++ [(newRequest state.symbol).start] }

def runCallback (state : State) (call : Nat) (request : SnapshotRequest)
    (completion : Completion) : State :=
  match SnapshotRequest.callback beast { request with outstanding := none } completion with
  | (request, none) => { state with requests := state.requests.set call request }
  | (request, some response) =>
      { state with
        requests := state.requests.set call request
        invocations := onSnapshotResponse boost what handlers state.invocations call response }

/-- A call, also one that a handler makes, or the completion of the operation
that the request of a call has outstanding. -/
inductive Event
  | asyncSnapshot
  | completion (call : Nat) (completion : Completion)

def step (state : State) : Event → Option State
  | .asyncSnapshot => some (asyncSnapshot state)
  | .completion call completion => do
      let request ← state.requests[call]?
      if request.outstanding = some completion.operation then
        some (runCallback beast boost what handlers state call request completion)
      else none

end Responses

end Snapshots

end Connector

end ExchangeConnectivity
