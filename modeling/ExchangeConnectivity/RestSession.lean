import ExchangeConnectivity.ActionRuns
import ExchangeConnectivity.ByteStrings

/-!
# The REST session

`rest_client/rest_client.cpp`, of which the spot client and the order client
have copies: one HTTPS request whose stages (resolve, connect, handshake,
write, read) race with a deadline timer on a strand.
-/

namespace ExchangeConnectivity

open ActionRuns ByteStrings

inductive RestError
  | resolveFailed
  | connectFailed
  | tlsHandshakeFailed
  | writeFailed
  | readFailed
  | timeout
  | invalidRequest
  | httpStatus
  | invalidResponse
  deriving DecidableEq

structure RestFailure where
  error : RestError := .invalidRequest
  message : Bytes
  deriving DecidableEq

/-- `http::verb`, with the verbs the clients use by name. -/
inductive Verb
  | delete
  | get
  | post
  | other (name : String)
  deriving DecidableEq

structure HttpRequest where
  host : Bytes
  port : Bytes := ascii "443"
  target : Bytes := ascii "/"
  method : Verb := .get
  headers : List (Bytes × Bytes) := []
  body : Bytes := []
  deriving DecidableEq

structure HttpResponse where
  status : Nat := 0
  headers : List (Bytes × Bytes)
  body : Bytes
  deriving DecidableEq

/-- `RestClient::Response`. -/
abbrev Response := Except RestFailure HttpResponse

/-- The Beast message of a request: the fields in the order they are set. -/
structure HttpMessage where
  method : Verb
  target : Bytes
  version : Nat := 11
  fields : List (Bytes × Bytes)
  keepAlive : Bool := false
  body : Bytes
  prepared : Bool

namespace RestSession

inductive State
  | idle
  | running
  | completed
  deriving DecidableEq

/-- The asynchronous operations a session starts. -/
inductive Operation
  | execute
  | deadline
  | resolve
  | connect
  | handshake
  | write
  | read
  deriving DecidableEq

/-- The stages of the request, as opposed to the deadline. -/
def Operation.IsStage : Operation → Prop
  | .resolve | .connect | .handshake | .write | .read => True
  | .execute | .deadline => False

/-- A session with the operations outstanding on its strand.  `started` logs
every operation started so far, and `invocations` the responses the handler
has been called with. -/
structure Session where
  request : HttpRequest
  hasHandler : Bool
  state : State := .idle
  httpRequest : Option HttpMessage := none
  resolverCancelled : Bool := false
  socketClosed : Bool := false
  deadlineCancelled : Bool := false
  outstanding : List Operation := []
  started : List Operation := []
  invocations : List Response := []

def Session.start (session : Session) (operation : Operation) : Session :=
  { session with
    outstanding := session.outstanding ++ [operation]
    started := session.started ++ [operation] }

def Session.finish (session : Session) (operation : Operation) : Session :=
  { session with outstanding := session.outstanding.erase operation }

/-- A session after `run()`, which dispatches `execute`. -/
def run (request : HttpRequest) (hasHandler : Bool) : Session :=
  Session.start { request, hasHandler } .execute

/-- `complete`: the handler is moved out before it is called. -/
def complete (session : Session) (response : Response) : Session :=
  if session.state = .completed then session
  else
    let session :=
      { session with state := .completed, deadlineCancelled := true }
    if session.hasHandler then
      { session with
        hasHandler := false
        invocations := session.invocations ++ [response] }
    else session

def fail (session : Session) (error : RestError) (message : Bytes) : Session :=
  complete session (.error { error, message })

/-- The outcome of `SSL_set_tlsext_host_name`; a failure carries the text of
`ERR_get_error` unless that is zero. -/
inductive TlsName
  | accepted
  | rejected (error : Option Bytes)

def execute (session : Session) (tlsName : TlsName) : Session :=
  let session := { session with state := .running }
  if session.request.host = [] ∨ session.request.port = [] ∨
      session.request.target = [] then
    fail session .invalidRequest (ascii "Host, port and target are required")
  else
    match tlsName with
    | .rejected error =>
        fail session .tlsHandshakeFailed
          (error.getD (ascii "Failed to set TLS server name"))
    | .accepted => (session.start .deadline).start .resolve

/-- The start common to the I/O callbacks: nothing happens after completion,
an error completes the session, and success goes on to the next stage. -/
def onStage (session : Session) (error : Option Bytes) (failure : RestError)
    (next : Option Session) : Option Session :=
  if session.state = .completed then some session
  else
    match error with
    | some message => some (fail session failure message)
    | none => next

def onResolve (session : Session) (error : Option Bytes) : Option Session :=
  onStage session error .resolveFailed (some (session.start .connect))

def onConnect (session : Session) (error : Option Bytes) : Option Session :=
  onStage session error .connectFailed (some (session.start .handshake))

def httpMessage (request : HttpRequest) : HttpMessage where
  method := request.method
  target := request.target
  fields :=
    (ascii "Host", request.host) ::
      (ascii "User-Agent", ascii "ExchangeConnectivity") :: request.headers
  body := request.body
  prepared := request.body ≠ []

/-- Beast may refuse to build a message by throwing.  The exception leaves the
event loop, so the step has no successor. -/
def onHandshake (throws : HttpMessage → Bool) (session : Session)
    (error : Option Bytes) : Option Session :=
  onStage session error .tlsHandshakeFailed
    (if throws (httpMessage session.request) then none
    else
      some (Session.start
        { session with httpRequest := some (httpMessage session.request) } .write))

def onWrite (session : Session) (error : Option Bytes) : Option Session :=
  onStage session error .writeFailed (some (session.start .read))

/-- The response is the one the parser releases. -/
def onRead (session : Session) (result : Except Bytes HttpResponse) :
    Option Session :=
  match result with
  | .error message => onStage session (some message) .readFailed none
  | .ok response =>
      onStage session none .readFailed (some (complete session (.ok response)))

def onTimeout (session : Session) (error : Option Bytes) : Session :=
  if error.isSome ∨ session.state = .completed then session
  else
    fail { session with resolverCancelled := true, socketClosed := true } .timeout
      (ascii "Request deadline exceeded")

/-- A completion handler about to run on the strand. -/
inductive Completion
  | execute (tlsName : TlsName)
  | deadline (error : Option Bytes)
  | resolve (error : Option Bytes)
  | connect (error : Option Bytes)
  | handshake (error : Option Bytes)
  | write (error : Option Bytes)
  | read (result : Except Bytes HttpResponse)

def Completion.operation : Completion → Operation
  | .execute _ => .execute
  | .deadline _ => .deadline
  | .resolve _ => .resolve
  | .connect _ => .connect
  | .handshake _ => .handshake
  | .write _ => .write
  | .read _ => .read

def callback (throws : HttpMessage → Bool) (session : Session) :
    Completion → Option Session
  | .execute tlsName => some (execute session tlsName)
  | .deadline error => some (onTimeout session error)
  | .resolve error => onResolve session error
  | .connect error => onConnect session error
  | .handshake error => onHandshake throws session error
  | .write error => onWrite session error
  | .read result => onRead session result

/-- Asio completes an outstanding operation once, and a timer wait fails only
when it was cancelled. -/
def Completion.Possible (session : Session) (completion : Completion) : Prop :=
  completion.operation ∈ session.outstanding ∧
    ∀ message, completion = .deadline (some message) →
      session.deadlineCancelled = true

instance (session : Session) (completion : Completion) :
    Decidable (completion.Possible session) :=
  match completion with
  | .deadline (some message) =>
      decidable_of_iff
        (Operation.deadline ∈ session.outstanding ∧ session.deadlineCancelled = true)
        ⟨fun both => ⟨both.1, fun _ _ => both.2⟩,
          fun both => ⟨both.1, both.2 message rfl⟩⟩
  | .execute _ | .deadline none | .resolve _ | .connect _ | .handshake _ | .write _
  | .read _ =>
      decidable_of_iff (_ ∈ session.outstanding)
        ⟨fun member => ⟨member, fun _ equal => by cases equal⟩, fun both => both.1⟩

def step (throws : HttpMessage → Bool) (session : Session) (completion : Completion) :
    Option Session :=
  if completion.Possible session then
    callback throws (session.finish completion.operation) completion
  else none

end RestSession

/-- A `std::function`, possibly empty; a call of it produces outputs. -/
abbrev Handler (Argument Output : Type) := Option (Argument → List Output)

/-- What a call has done when it returns: the outputs of the handlers it has
called, and the requests it has handed to the REST client, each with its
response handler. -/
structure Effects (Output : Type) where
  outputs : List Output := []
  requests : List (HttpRequest × (Response → List Output)) := []

/-- Nothing happens. -/
def Effects.none {Output : Type} : Effects Output := {}

/-- `RestClient::asyncRequest`, which makes a session and runs it. -/
def asyncRequest {Output : Type} (request : HttpRequest)
    (handler : Response → List Output) : Effects Output where
  requests := [(request, handler)]

end ExchangeConnectivity
