import ExchangeConnectivity.ActionRuns
import ExchangeConnectivity.ByteStrings

/-!
# The market-data WebSocket client

`binance/binance_web_socket_client.cpp`: a connection is made in four stages,
then messages are read in a loop and written one at a time from a queue.
-/

namespace ExchangeConnectivity

open ActionRuns ByteStrings

namespace BinanceWebSocketClient

/-- An `error_code`; of its values the client singles out
`websocket::error::closed`. -/
inductive ErrorCode
  | closed
  | other (message : Bytes)
  deriving DecidableEq

/-- Only the first and the last two states are ever entered. -/
inductive State
  | disconnected
  | resolving
  | connecting
  | tlsHandshake
  | webSocketHandshake
  | connected
  | writing
  deriving DecidableEq

/-- The asynchronous operations the client starts. -/
inductive Operation
  | resolve
  | connect
  | tlsHandshake
  | webSocketHandshake
  | read
  | write
  deriving DecidableEq

/-- A client with the operations outstanding.  `resolving` is the host and port
given to the resolver; `reported` and `received` are the calls of the handlers;
`sent` and `handed` log the messages passed to
`send` and to `async_write`; `handshaken` and `failed` record that the
WebSocket handshake has succeeded and that some completion has carried an
error. -/
structure Client where
  host : Bytes := []
  target : Bytes := []
  resolving : Option (Bytes × Bytes) := none
  writeQueue : List Bytes := []
  state : State := .disconnected
  hasMessageHandler : Bool := true
  hasErrorHandler : Bool := true
  outstanding : List Operation := []
  reported : List ErrorCode := []
  received : List Bytes := []
  sent : List Bytes := []
  handed : List Bytes := []
  handshaken : Bool := false
  failed : Bool := false

def Client.start (client : Client) (operation : Operation) : Client :=
  { client with outstanding := client.outstanding ++ [operation] }

def Client.finish (client : Client) (operation : Operation) : Client :=
  { client with outstanding := client.outstanding.erase operation }

def reportError (client : Client) (error : ErrorCode) : Client :=
  if client.hasErrorHandler then
    { client with reported := client.reported ++ [error] }
  else client

/-- The branch of a callback that reports the error of its completion. -/
def fail (client : Client) (error : ErrorCode) : Client :=
  { reportError client error with failed := true }

def connect (client : Client) (host port target : Bytes) : Client :=
  Client.start { client with host, target, resolving := some (host, port) } .resolve

def write (client : Client) : Client :=
  match client.writeQueue with
  | [] => client
  | message :: _ =>
      if client.state ≠ .connected then client
      else
        Client.start
          { client with state := .writing, handed := client.handed ++ [message] } .write

def read (client : Client) : Client :=
  client.start .read

def send (client : Client) (message : Bytes) : Client :=
  let client :=
    { client with
      writeQueue := client.writeQueue ++ [message], sent := client.sent ++ [message] }
  if client.state = .connected then write client else client

def onResolve (client : Client) (error : Option ErrorCode) : Client :=
  match error with
  | some error => fail client error
  | none => client.start .connect

/-- `tlsName` is the error of `SSL_set_tlsext_host_name`, if it fails. -/
def onConnect (client : Client) (error tlsName : Option ErrorCode) : Client :=
  match error, tlsName with
  | some error, _ => fail client error
  | none, some error => fail client error
  | none, none => client.start .tlsHandshake

def onSslHandshake (client : Client) (error : Option ErrorCode) : Client :=
  match error with
  | some error => fail client error
  | none => client.start .webSocketHandshake

def onWebSocketHandshake (client : Client) (error : Option ErrorCode) : Client :=
  match error with
  | some error => fail client error
  | none =>
      let client := { client with state := .connected, handshaken := true }
      read (if client.writeQueue ≠ [] then write client else client)

def onWrite (client : Client) (error : Option ErrorCode) : Client :=
  let client := { client with state := .disconnected }
  match error with
  | some error => fail client error
  | none =>
      let client := { client with writeQueue := client.writeQueue.tail }
      if client.writeQueue ≠ [] then write client else client

def onClose (client : Client) (error : ErrorCode) : Client :=
  let client := { client with state := .disconnected }
  if error ≠ .closed then reportError client error else client

def onRead (client : Client) (result : Except ErrorCode Bytes) : Client :=
  match result with
  | .error error => { onClose client error with failed := true }
  | .ok message =>
      read
        (if client.hasMessageHandler then
          { client with received := client.received ++ [message] }
        else client)

/-- The synchronous `close`, with the error of `webSocket.close`, if any. -/
def close (client : Client) (error : Option ErrorCode) : Client :=
  if client.state ≠ .connected then client
  else
    match error with
    | some error => onClose client error
    | none => client

/-- How an operation ends.  A read that succeeds brings all that `readBuffer` then
holds, also what a failed read of an earlier connection has left there. -/
inductive Completion
  | resolve (error : Option ErrorCode)
  | connect (error tlsName : Option ErrorCode)
  | tlsHandshake (error : Option ErrorCode)
  | webSocketHandshake (error : Option ErrorCode)
  | read (result : Except ErrorCode Bytes)
  | write (error : Option ErrorCode)

def Completion.operation : Completion → Operation
  | .resolve _ => .resolve
  | .connect _ _ => .connect
  | .tlsHandshake _ => .tlsHandshake
  | .webSocketHandshake _ => .webSocketHandshake
  | .read _ => .read
  | .write _ => .write

def callback (client : Client) : Completion → Client
  | .resolve error => onResolve client error
  | .connect error tlsName => onConnect client error tlsName
  | .tlsHandshake error => onSslHandshake client error
  | .webSocketHandshake error => onWebSocketHandshake client error
  | .read result => onRead client result
  | .write error => onWrite client error

/-- A call of `send` or the completion of an outstanding operation. -/
inductive Event
  | send (message : Bytes)
  | completion (completion : Completion)

def step (client : Client) : Event → Option Client
  | .send message => some (send client message)
  | .completion completion =>
      if completion.operation ∈ client.outstanding then
        some (callback (client.finish completion.operation) completion)
      else none

end BinanceWebSocketClient

end ExchangeConnectivity
