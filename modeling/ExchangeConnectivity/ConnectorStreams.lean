import ExchangeConnectivity.ConnectorParser
import ExchangeConnectivity.WebSocketSession

/-!
# The streams of the connector

`binance_connector/networking/websocket_client.cpp` and the stream methods of
`binance_connector/binance/connector.cpp`: each start makes a new session,
which keeps itself alive through the callbacks of its operations, and a stop
only closes the socket of the session the client holds at that time.
-/

namespace ExchangeConnectivity

open ActionRuns ByteStrings

namespace Connector

open WebSocketSession (ErrorCode)

/-- The stream a session reads, and with it the method of the connector its
message handler calls. -/
inductive Feed
  | depth
  | trades
  deriving DecidableEq

inductive Operation
  | resolve
  | connect
  | tlsHandshake
  | handshake
  | write (subscription : Bytes)
  | read
  deriving DecidableEq

/-- The completion of an operation; `serverNameSet` tells whether
`SSL_set_tlsext_host_name` succeeds when the completion runs. -/
inductive Completion
  | resolve (error : Option ErrorCode)
  | connect (error : Option ErrorCode) (serverNameSet : Bool)
  | tlsHandshake (error : Option ErrorCode)
  | handshake (error : Option ErrorCode)
  | write (subscription : Bytes) (error : Option ErrorCode)
  | read (result : Except ErrorCode Bytes)
  deriving DecidableEq

def Completion.operation : Completion → Operation
  | .resolve _ => .resolve
  | .connect _ _ => .connect
  | .tlsHandshake _ => .tlsHandshake
  | .handshake _ => .handshake
  | .write subscription _ => .write subscription
  | .read _ => .read

inductive LogLine
  | failed (operation : String) (error : ErrorCode)
  | serverName
  deriving DecidableEq

/-- A `WebSocketSession` with its operations, `pending` until they complete and
`queued` until their completions run.  `stopped` is set once
`WebSocketClient::stop` has returned for the session; `started` and `handled`
log its operations and the calls of its message handler with that mark. -/
structure Session where
  feed : Feed
  streamName : Bytes
  subscription : Bytes := []
  socketClosed : Bool := false
  pending : List Operation := []
  queued : List Completion := []
  logged : List LogLine := []
  stopped : Bool := false
  started : List (Bool × Operation) := []
  handled : List (Bool × Bytes) := []

def Session.startOperation (session : Session) (operation : Operation) : Session :=
  { session with
    pending := session.pending ++ [operation]
    started := session.started ++ [(session.stopped, operation)] }

def Session.start (session : Session) : Session :=
  session.startOperation .resolve

/-- How closing the socket completes an operation pending on it; a resolve is
not pending on the socket. -/
def Operation.aborted : Operation → Option Completion
  | .resolve => none
  | .connect => some (.connect (some .operationAborted) true)
  | .tlsHandshake => some (.tlsHandshake (some .operationAborted))
  | .handshake => some (.handshake (some .operationAborted))
  | .write subscription => some (.write subscription (some .operationAborted))
  | .read => some (.read (.error .operationAborted))

def Session.stop (session : Session) : Session :=
  { session with
    socketClosed := true
    pending := session.pending.filter fun operation => operation.aborted = none
    queued := session.queued ++ session.pending.filterMap Operation.aborted }

def Session.reportError (session : Session) (operation : String) (error : ErrorCode) :
    Session :=
  if error ≠ .operationAborted then
    { session with logged := session.logged ++ [.failed operation error] }
  else session

def Session.onConnected (session : Session) (serverNameSet : Bool) : Session :=
  if ¬ serverNameSet then
    Session.stop { session with logged := session.logged ++ [.serverName] }
  else session.startOperation .tlsHandshake

def Session.onTlsHandshake (session : Session) : Session :=
  session.startOperation .handshake

def subscriptionText (streamName : Bytes) : Bytes :=
  ascii "\x7b\"method\":\"SUBSCRIBE\",\"params\":[\"" ++ streamName ++ ascii "\"],\"id\":1\x7d"

def Session.subscribe (session : Session) : Session :=
  let subscription := subscriptionText session.streamName
  Session.startOperation { session with subscription } (.write subscription)

def Session.read (session : Session) : Session :=
  session.startOperation .read

/-- The callbacks, except that of a successful read. -/
def Session.callback (session : Session) : Completion → Session
  | .resolve (some error) => session.reportError "WebSocket resolve failed" error
  | .resolve none => session.startOperation .connect
  | .connect (some error) _ => session.reportError "WebSocket connect failed" error
  | .connect none serverNameSet => session.onConnected serverNameSet
  | .tlsHandshake (some error) => session.reportError "WebSocket TLS handshake failed" error
  | .tlsHandshake none => session.onTlsHandshake
  | .handshake (some error) => session.reportError "WebSocket handshake failed" error
  | .handshake none => session.subscribe
  | .write _ (some error) => session.reportError "WebSocket subscription failed" error
  | .write _ none => session.read
  | .read (.error error) =>
      if error ≠ .closed ∧ error ≠ .operationAborted then
        session.reportError "WebSocket read failed" error
      else session
  | .read (.ok _) => session

/-- A `WebSocketClient`; sessions are named by the order of their creation. -/
structure WebSocketClient where
  streamName : Bytes
  session : Option Nat := none
  deriving DecidableEq

/-- `session->stop()`, after which the client lets go of the session. -/
def Session.release (session : Session) : Session :=
  { session.stop with stopped := true }

def WebSocketClient.stop (sessions : List Session) (client : WebSocketClient) :
    List Session × WebSocketClient :=
  match client.session with
  | none => (sessions, client)
  | some index => (sessions.modify index Session.release, { client with session := none })

/-- The message handler of the new session is the method of the feed. -/
def WebSocketClient.start (sessions : List Session) (client : WebSocketClient) (feed : Feed) :
    List Session × WebSocketClient :=
  let (sessions, client) := client.stop sessions
  (sessions ++ [Session.start { feed, streamName := client.streamName }],
    { client with session := some sessions.length })

/-- What the connector keeps for one feed.  The handler is named by the session
created in the call that installed it; `updates` logs the handler called, the
session the message was read by, and the update. -/
structure Stream (Update : Type) where
  client : Option WebSocketClient := none
  handler : Option Nat := none
  updates : List (Nat × Nat × Update) := []

section Streams

variable {Update : Type}

def Stream.stop (sessions : List Session) (stream : Stream Update) :
    List Session × Stream Update :=
  match stream.client with
  | none => (sessions, { stream with handler := none })
  | some client => ((client.stop sessions).1, { stream with client := none, handler := none })

/-- The handler may be an empty `std::function`. -/
def Stream.start (sessions : List Session) (stream : Stream Update) (feed : Feed)
    (streamName : Bytes) (hasHandler : Bool) : List Session × Stream Update :=
  let (sessions, stream) := stream.stop sessions
  let handler := if hasHandler then some sessions.length else none
  let (sessions, client) := WebSocketClient.start sessions { streamName } feed
  (sessions, { stream with client := some client, handler })

variable (boost : BoostJson.Library)

/-- The handler a message reaches, with the update given to it. -/
def Stream.received (parseUpdate : Bytes → Except Fault Update) (stream : Stream Update)
    (message : Bytes) : Except Fault (Option (Nat × Update)) := do
  if ← isSubscriptionResponse boost message then
    pure none
  else
    let update ← parseUpdate message
    pure (stream.handler.map fun handler => (handler, update))

end Streams

structure Streams where
  symbol : Bytes
  sessions : List Session := []
  depth : Stream DepthUpdate := {}
  trades : Stream Trade := {}

/-- A new connector. -/
def newStreams (symbol : Bytes) : Streams :=
  { symbol := toLower symbol }

def stopDepth (streams : Streams) : Streams :=
  let (sessions, depth) := streams.depth.stop streams.sessions
  { streams with sessions, depth }

def stopTrades (streams : Streams) : Streams :=
  let (sessions, trades) := streams.trades.stop streams.sessions
  { streams with sessions, trades }

def stop (streams : Streams) : Streams :=
  stopTrades (stopDepth streams)

def startDepth (streams : Streams) (hasHandler : Bool) : Streams :=
  let (sessions, depth) :=
    streams.depth.start streams.sessions .depth (streams.symbol ++ ascii "@depth@100ms")
      hasHandler
  { streams with sessions, depth }

def startTrades (streams : Streams) (hasHandler : Bool) : Streams :=
  let (sessions, trades) :=
    streams.trades.start streams.sessions .trades (streams.symbol ++ ascii "@trade") hasHandler
  { streams with sessions, trades }

/-- The calls a user, or a handler while it runs, can make. -/
inductive Call
  | startDepth (hasHandler : Bool)
  | startTrades (hasHandler : Bool)
  | stopDepth
  | stopTrades
  | stop

def call (streams : Streams) : Call → Streams
  | .startDepth hasHandler => startDepth streams hasHandler
  | .startTrades hasHandler => startTrades streams hasHandler
  | .stopDepth => stopDepth streams
  | .stopTrades => stopTrades streams
  | .stop => stop streams

/-- What a user's handler does: the calls it makes, and whether it returns or
throws a `std::exception`, which is caught, rather than anything else. -/
structure Handling where
  calls : List Call
  returns : Bool

section Messages

variable (boost : BoostJson.Library)

/-- The result tells whether the method returns to the session. -/
def onDepthMessage (streams : Streams) (session : Nat) (message : Bytes)
    (handling : Handling) : Streams × Bool :=
  match streams.depth.received boost (parseDepthUpdate boost) message with
  | .ok (some (handler, update)) =>
      let updates := streams.depth.updates ++ [(handler, session, update)]
      (handling.calls.foldl call { streams with depth := { streams.depth with updates } },
        handling.returns)
  | _ => (streams, true)

def onTradeMessage (streams : Streams) (session : Nat) (message : Bytes)
    (handling : Handling) : Streams × Bool :=
  match streams.trades.received boost (parseTrade boost) message with
  | .ok (some (handler, trade)) =>
      let updates := streams.trades.updates ++ [(handler, session, trade)]
      (handling.calls.foldl call { streams with trades := { streams.trades with updates } },
        handling.returns)
  | _ => (streams, true)

def onMessage (streams : Streams) (feed : Feed) (session : Nat) (message : Bytes)
    (handling : Handling) : Streams × Bool :=
  match feed with
  | .depth => onDepthMessage boost streams session message handling
  | .trades => onTradeMessage boost streams session message handling

def Streams.modify (streams : Streams) (index : Nat) (change : Session → Session) : Streams :=
  { streams with sessions := streams.sessions.modify index change }

def Session.handle (session : Session) (message : Bytes) : Session :=
  { session with handled := session.handled ++ [(session.stopped, message)] }

/-- The callback of a successful read. -/
def onRead (streams : Streams) (index : Nat) (feed : Feed) (message : Bytes)
    (handling : Handling) : Streams :=
  match onMessage boost (streams.modify index (Session.handle · message)) feed index message
      handling with
  | (streams, true) => streams.modify index Session.read
  | (streams, false) => streams

/-- A call made between two callbacks, the completion of a pending operation,
or the run of a queued completion, with what the user's handler does should it
be called. -/
inductive Event
  | call (call : Call)
  | complete (index : Nat) (completion : Completion)
  | run (index : Nat) (completion : Completion) (handling : Handling)

def Session.complete (session : Session) (completion : Completion) : Session :=
  { session with
    pending := session.pending.erase completion.operation
    queued := session.queued ++ [completion] }

def Session.dequeue (session : Session) (completion : Completion) : Session :=
  { session with queued := session.queued.erase completion }

def runCompletion (streams : Streams) (index : Nat) (feed : Feed) (completion : Completion)
    (handling : Handling) : Streams :=
  match completion with
  | .read (.ok message) => onRead boost streams index feed message handling
  | completion => streams.modify index (Session.callback · completion)

def step (streams : Streams) : Event → Option Streams
  | .call event => some (call streams event)
  | .complete index completion => do
      let session ← streams.sessions[index]?
      if completion.operation ∈ session.pending then
        some (streams.modify index (Session.complete · completion))
      else none
  | .run index completion handling => do
      let session ← streams.sessions[index]?
      if completion ∈ session.queued then
        some (runCompletion boost (streams.modify index (Session.dequeue · completion)) index
          session.feed completion handling)
      else none

end Messages

end Connector

end ExchangeConnectivity
