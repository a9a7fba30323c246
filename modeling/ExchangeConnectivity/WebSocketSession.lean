import ExchangeConnectivity.ActionRuns
import ExchangeConnectivity.ByteStrings

/-!
# The WebSocket session on a strand

`web_socket_client/web_socket_client.cpp`, of which the order-execution module
has a copy: a session is started, given messages and stopped by lambdas posted
to its strand, on which the completions of its operations run as well.
-/

namespace ExchangeConnectivity

open ActionRuns ByteStrings

namespace WebSocketSession

/-- An `error_code`; of its values the session singles out
`websocket::error::closed` and `operation_aborted`. -/
inductive ErrorCode
  | closed
  | operationAborted
  | other (message : Bytes)
  deriving DecidableEq

inductive State
  | idle
  | connecting
  | connected
  | stopped
  deriving DecidableEq

/-- The asynchronous operations the session starts.  A write borrows the front
element of the queue, which is named by the number of elements removed before
it and holds the message. -/
inductive Operation
  | resolve
  | connect
  | tlsHandshake
  | handshake
  | read
  | write (element : Nat) (message : Bytes)
  deriving DecidableEq

/-- What the session prints to `std::cerr`. -/
inductive LogLine
  | failed (operation : String) (error : ErrorCode)
  | serverName (host : Bytes)
  deriving DecidableEq

/-- A session with the operations outstanding on its strand.  `removed` counts
the elements taken from the front of the queue, `started` logs every operation
started with the state it was started in, and `delivered` the messages the
handler has been called with. -/
structure Session where
  host : Bytes
  port : Bytes
  target : Bytes
  hasHandler : Bool
  outgoingMessages : List Bytes := []
  state : State := .idle
  writing : Bool := false
  resolverCancelled : Bool := false
  socketClosed : Bool := false
  logged : List LogLine := []
  removed : Nat := 0
  outstanding : List Operation := []
  started : List (State × Operation) := []
  delivered : List Bytes := []

/-- The session as its constructor leaves it. -/
def newSession (host port target : Bytes) (hasHandler : Bool) : Session :=
  { host, port, target, hasHandler }

def Session.start (session : Session) (operation : Operation) : Session :=
  { session with
    outstanding := session.outstanding ++ [operation]
    started := session.started ++ [(session.state, operation)] }

def Session.finish (session : Session) (operation : Operation) : Session :=
  { session with outstanding := session.outstanding.erase operation }

def stopNow (session : Session) : Session :=
  if session.state = .stopped then session
  else
    { session with
      state := .stopped
      writing := false
      removed := session.removed + session.outgoingMessages.length
      outgoingMessages := []
      resolverCancelled := true
      socketClosed := true }

def fail (session : Session) (operation : String) (error : ErrorCode) : Session :=
  stopNow
    (if error ≠ .operationAborted then
      { session with logged := session.logged ++ [.failed operation error] }
    else session)

def read (session : Session) : Session :=
  if session.state ≠ .connected then session
  else session.start .read

def write (session : Session) : Session :=
  match session.outgoingMessages with
  | [] => session
  | message :: _ =>
      if session.state ≠ .connected ∨ session.writing = true then session
      else Session.start { session with writing := true } (.write session.removed message)

def onResolve (session : Session) (error : Option ErrorCode) : Session :=
  if session.state ≠ .connecting then session
  else
    match error with
    | some error => fail session "WebSocket resolve failed" error
    | none => session.start .connect

/-- `serverNameSet` tells whether `SSL_set_tlsext_host_name` succeeds. -/
def onConnect (session : Session) (error : Option ErrorCode) (serverNameSet : Bool) :
    Session :=
  if session.state ≠ .connecting then session
  else
    match error with
    | some error => fail session "WebSocket connect failed" error
    | none =>
        if ¬ serverNameSet then
          stopNow { session with logged := session.logged ++ [.serverName session.host] }
        else session.start .tlsHandshake

def onTlsHandshake (session : Session) (error : Option ErrorCode) : Session :=
  if session.state ≠ .connecting then session
  else
    match error with
    | some error => fail session "WebSocket TLS handshake failed" error
    | none => session.start .handshake

def onHandshake (session : Session) (error : Option ErrorCode) : Session :=
  if session.state ≠ .connecting then session
  else
    match error with
    | some error => fail session "WebSocket handshake failed" error
    | none => write (read { session with state := .connected })

/-- The result of a successful read is what the buffer holds. -/
def onRead (session : Session) (result : Except ErrorCode Bytes) : Session :=
  if session.state ≠ .connected then session
  else
    match result with
    | .error .closed => stopNow session
    | .error error => fail session "WebSocket read failed" error
    | .ok message =>
        read
          (if session.hasHandler then
            { session with delivered := session.delivered ++ [message] }
          else session)

def onWrite (session : Session) (error : Option ErrorCode) : Session :=
  if session.state = .stopped then session
  else
    let session := { session with writing := false }
    match error with
    | some error => fail session "WebSocket write failed" error
    | none =>
        write
          { session with
            outgoingMessages := session.outgoingMessages.tail
            removed := session.removed + 1 }

/-- A completion handler about to run on the strand. -/
inductive Completion
  | resolve (error : Option ErrorCode)
  | connect (error : Option ErrorCode) (serverNameSet : Bool)
  | tlsHandshake (error : Option ErrorCode)
  | handshake (error : Option ErrorCode)
  | read (result : Except ErrorCode Bytes)
  | write (element : Nat) (message : Bytes) (error : Option ErrorCode)

def Completion.operation : Completion → Operation
  | .resolve _ => .resolve
  | .connect _ _ => .connect
  | .tlsHandshake _ => .tlsHandshake
  | .handshake _ => .handshake
  | .read _ => .read
  | .write element message _ => .write element message

def callback (session : Session) : Completion → Session
  | .resolve error => onResolve session error
  | .connect error serverNameSet => onConnect session error serverNameSet
  | .tlsHandshake error => onTlsHandshake session error
  | .handshake error => onHandshake session error
  | .read result => onRead session result
  | .write _ _ error => onWrite session error

/-- The lambda `start` posts. -/
def onStart (session : Session) : Session :=
  if session.state ≠ .idle then session
  else Session.start { session with state := .connecting } .resolve

/-- The lambda `send` posts. -/
def onSend (session : Session) (message : Bytes) : Session :=
  if session.state = .stopped then session
  else write { session with outgoingMessages := session.outgoingMessages ++ [message] }

/-- What runs on the strand: a posted lambda or the completion of an
outstanding operation, whatever its result. -/
inductive Event
  | start
  | send (message : Bytes)
  | stop
  | completion (completion : Completion)

def step (session : Session) : Event → Option Session
  | .start => some (onStart session)
  | .send message => some (onSend session message)
  | .stop => some (stopNow session)
  | .completion completion =>
      if completion.operation ∈ session.outstanding then
        some (callback (session.finish completion.operation) completion)
      else none

theorem step_completion_eq_some_iff {session next : Session} {completion : Completion} :
    step session (.completion completion) = some next ↔
      completion.operation ∈ session.outstanding ∧
        callback (session.finish completion.operation) completion = next := by
  rw [step, Option.ite_none_right_eq_some, Option.some_inj]

end WebSocketSession

end ExchangeConnectivity
