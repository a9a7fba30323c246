import ExchangeConnectivity.ActionRuns
import ExchangeConnectivity.HttpExchange

/-!
# The asynchronous REST client

`rest_client_async/rest_client_async.cpp`: each request is carried by a state
that its callbacks share, on a connection taken from the idle pool or made for
it.  A redirect moves the handler on to the state of the next request.
-/

namespace ExchangeConnectivity

open ActionRuns ByteStrings HttpExchange

namespace RestClientAsync

inductive RestError
  | resolveFailed
  | connectFailed
  | tlsHandshakeFailed
  | writeFailed
  | readFailed
  | bodyLimitExceeded
  | shutdownFailed
  | tooManyRedirects
  | crossHostRedirect
  | poolExhausted
  deriving DecidableEq

abbrev RestResult := Except RestError HttpResponse

structure Config extends ClientConfig where
  userAgent := ascii "RestClientAsync/3.0"
  maxPoolSize : Nat := 8
  keepAlive : Bool := true

/-- A `Connection`; connections are named by the order of their creation. -/
structure Connection where
  isTls : Bool
  readBuffer : Bytes := []
  deriving DecidableEq

/-- A `RequestState`.  The handler is named by the call it was passed to. -/
structure RequestState where
  request : Request
  redirectCount : Nat
  conn : Option Nat := none
  req : HttpMessage
  handler : Nat
  deriving DecidableEq

inductive Operation
  | resolve
  | connect
  | tlsHandshake
  | write
  | read
  deriving DecidableEq

/-- An asynchronous operation whose callback holds the state. -/
structure Pending where
  operation : Operation
  st : RequestState
  deriving DecidableEq

/-- The client with its operations outstanding.  `shutDowns` logs the
connections shut down, `calls` the requests made by callers, `sent` the messages
given to `async_write`, each with its call, and `invocations` the calls of the
handlers. -/
structure Client where
  idlePool : List Nat := []
  connections : List Connection := []
  shutDowns : List Nat := []
  outstanding : List Pending := []
  calls : List Request := []
  sent : List (Nat × Request) := []
  invocations : List (Nat × RestResult) := []

def Client.start (client : Client) (operation : Operation) (st : RequestState) : Client :=
  { client with outstanding := client.outstanding ++ [{ operation, st }] }

/-- `st->handler(result)`, which every callback does last; what the handler
itself requests follows as calls of their own. -/
def Client.invoke (client : Client) (st : RequestState) (result : RestResult) : Client :=
  { client with invocations := client.invocations ++ [(st.handler, result)] }

/-- `~RestClientAsync`, which leaves the connections that requests hold alone. -/
def destroy (client : Client) : Client :=
  { client with shutDowns := client.shutDowns ++ client.idlePool, idlePool := [] }

section Engine

variable (beast : Beast) (config : Config)

def releaseConnection (client : Client) (conn : Option Nat) (reusable : Bool) : Client :=
  match conn with
  | none => client
  | some index =>
      if ¬ reusable ∨ ¬ config.keepAlive ∨ client.idlePool.length ≥ config.maxPoolSize then
        { client with shutDowns := client.shutDowns ++ [index] }
      else
        { client with
          connections := client.connections.modify index ({ · with readBuffer := [] })
          idlePool := client.idlePool ++ [index] }

def resolveRedirect (location : Bytes) : Except RestError Bytes :=
  match extractRedirectPath location config.host with
  | .ok target => .ok target
  | .error _ => .error .crossHostRedirect

def sendAndReceive (client : Client) (st : RequestState) : Client :=
  Client.start { client with sent := client.sent ++ [(st.handler, st.request)] } .write st

def newState (request : Request) (redirectCount handler : Nat) : RequestState :=
  { request, redirectCount, req := config.toClientConfig.message beast request, handler }

def startRequest (client : Client) (request : Request) (redirectCount handler : Nat) : Client :=
  let st := newState beast config request redirectCount handler
  match client.idlePool with
  | index :: rest => sendAndReceive { client with idlePool := rest } { st with conn := some index }
  | [] => client.start .resolve st

/-- `serverNameSet` and `hostSet` tell whether `SSL_set_tlsext_host_name` and
`X509_VERIFY_PARAM_set1_host` succeed. -/
def doConnect (client : Client) (st : RequestState) (serverNameSet hostSet : Bool) : Client :=
  if config.https then
    if ¬ serverNameSet then client.invoke st (.error .tlsHandshakeFailed)
    else if config.verifyPeer ∧ ¬ hostSet then client.invoke st (.error .tlsHandshakeFailed)
    else client.start .connect st
  else client.start .connect st

def onResolve (client : Client) (st : RequestState) (failed serverNameSet hostSet : Bool) :
    Client :=
  if failed then client.invoke st (.error .resolveFailed)
  else doConnect config client st serverNameSet hostSet

/-- A connection is made of the stream, and the request sent on it. -/
def useStream (client : Client) (st : RequestState) : Client :=
  sendAndReceive
    { client with connections := client.connections ++ [{ isTls := config.https }] }
    { st with conn := some client.connections.length }

def onConnect (client : Client) (st : RequestState) (failed : Bool) : Client :=
  if failed then client.invoke st (.error .connectFailed)
  else if config.https then client.start .tlsHandshake st
  else useStream config client st

def onTlsHandshake (client : Client) (st : RequestState) (failed : Bool) : Client :=
  if failed then client.invoke st (.error .tlsHandshakeFailed)
  else useStream config client st

def onWrite (client : Client) (st : RequestState) (failed : Bool) : Client :=
  if failed then
    Client.invoke (releaseConnection config client st.conn false) { st with conn := none }
      (.error .writeFailed)
  else client.start .read st

/-- What `http::async_read` leaves in the buffer of the connection. -/
def fillBuffer (client : Client) (conn : Option Nat) (readBuffer : Bytes) : Client :=
  match conn with
  | none => client
  | some index =>
      { client with connections := client.connections.modify index ({ · with readBuffer }) }

inductive ReadError
  | bodyLimit
  | other
  deriving DecidableEq

/-- The result is the response with the bytes left in the buffer behind it. -/
def onResponse (client : Client) (st : RequestState)
    (result : Except ReadError (WireResponse × Bytes)) : Client :=
  match result with
  | .error error =>
      let err := if error = .bodyLimit then .bodyLimitExceeded else .readFailed
      Client.invoke (releaseConnection config client st.conn false) { st with conn := none }
        (.error err)
  | .ok (response, readBuffer) =>
      let client := fillBuffer client st.conn readBuffer
      let out := toHttpResponse st.request.method response
      let reusable := response.keepAlive
      let location := out.header (ascii "Location")
      let released := releaseConnection config client st.conn reusable
      let st := { st with conn := none }
      if config.followRedirects ∧ isRedirectStatus out.status ∧
          st.redirectCount < config.maxRedirects ∧ location ≠ [] then
        match resolveRedirect config location with
        | .error error => released.invoke st (.error error)
        | .ok newTarget =>
            let newMethod := if out.status = 303 then .get else st.request.method
            let newBody := if out.status = 303 then [] else st.request.body
            startRequest beast config released
              { method := newMethod, target := newTarget, body := newBody
                headers := st.request.headers }
              (st.redirectCount + 1) st.handler
      else released.invoke st (.ok out)

end Engine

/-- What a callback-style call passes on to `startRequest`. -/
def request (method : Verb) (target body : Bytes) (headers : Headers) : Request :=
  { method, target, body, headers }

def withContentType (headers : Headers) (contentType : Bytes) : Headers :=
  if ¬ hasContentTypeHeader headers then assign headers (ascii "Content-Type") contentType
  else headers

def get (target : Bytes) (headers : Headers) : Request :=
  request .get target [] headers

def post (target body contentType : Bytes) (headers : Headers) : Request :=
  request .post target body (withContentType headers contentType)

def put (target body contentType : Bytes) (headers : Headers) : Request :=
  request .put target body (withContentType headers contentType)

def del (target : Bytes) (headers : Headers) : Request :=
  request .delete target [] headers

inductive FutureError
  | promiseAlreadySatisfied
  deriving DecidableEq

/-- `promise->set_value(result)` on a promise that holds its value, if any. -/
def setValue (promise : Option RestResult) (result : RestResult) :
    Except FutureError (Option RestResult) :=
  match promise with
  | none => .ok (some result)
  | some _ => .error .promiseAlreadySatisfied

/-- A future-style call: its request, and what its handler does to the promise
it shares with nothing but the future. -/
structure FutureCall where
  request : Request
  handler : Option RestResult → RestResult → Except FutureError (Option RestResult)

def getAsync (target : Bytes) (headers : Headers) : FutureCall where
  request := { method := .get, target, body := [], headers }
  handler := setValue

def postAsync (target body contentType : Bytes) (headers : Headers) : FutureCall where
  request := { method := .post, target, body, headers := withContentType headers contentType }
  handler := setValue

def putAsync (target body contentType : Bytes) (headers : Headers) : FutureCall where
  request := { method := .put, target, body, headers := withContentType headers contentType }
  handler := setValue

def delAsync (target : Bytes) (headers : Headers) : FutureCall where
  request := { method := .delete, target, body := [], headers }
  handler := setValue

/-- The promise of a call after all invocations of its handler. -/
def FutureCall.promise (made : FutureCall) (client : Client) (call : Nat) :
    Except FutureError (Option RestResult) :=
  ((client.invocations.filter fun entry => entry.1 = call).map Prod.snd).foldlM made.handler none

/-- How an operation ends. -/
inductive Completion
  | resolve (failed serverNameSet hostSet : Bool)
  | connect (failed : Bool)
  | tlsHandshake (failed : Bool)
  | write (failed : Bool)
  | read (result : Except ReadError (WireResponse × Bytes))

def Completion.operation : Completion → Operation
  | .resolve _ _ _ => .resolve
  | .connect _ => .connect
  | .tlsHandshake _ => .tlsHandshake
  | .write _ => .write
  | .read _ => .read

/-- A call that returns, or the completion of an outstanding operation. -/
inductive Event
  | call (request : Request)
  | completion (st : RequestState) (completion : Completion)

section Events

variable (beast : Beast) (config : Config)

def callback (client : Client) (st : RequestState) : Completion → Client
  | .resolve failed serverNameSet hostSet =>
      onResolve config client st failed serverNameSet hostSet
  | .connect failed => onConnect config client st failed
  | .tlsHandshake failed => onTlsHandshake config client st failed
  | .write failed => onWrite config client st failed
  | .read result => onResponse beast config client st result

def onCall (client : Client) (request : Request) : Client :=
  startRequest beast config { client with calls := client.calls ++ [request] } request 0
    client.calls.length

/-- A call of a message that Beast refuses to build throws and does nothing. -/
def step (client : Client) : Event → Option Client
  | .call request =>
      if beast.accepts request then some (onCall beast config client request) else none
  | .completion st completion =>
      if { operation := completion.operation, st } ∈ client.outstanding then
        let outstanding := client.outstanding.erase { operation := completion.operation, st }
        some (callback beast config { client with outstanding } st completion)
      else none

end Events

variable {beast : Beast} {config : Config} {client next : Client}

theorem step_call_eq_some_iff {request : Request} :
    step beast config client (.call request) = some next ↔
      beast.accepts request ∧ onCall beast config client request = next := by
  rw [step, Option.ite_none_right_eq_some, Option.some_inj]

theorem step_completion_eq_some_iff {st : RequestState} {completion : Completion} :
    step beast config client (.completion st completion) = some next ↔
      { operation := completion.operation, st } ∈ client.outstanding ∧
        callback beast config
          { client with
            outstanding := client.outstanding.erase { operation := completion.operation, st } }
          st completion = next := by
  rw [step, Option.ite_none_right_eq_some, Option.some_inj]

end RestClientAsync

end ExchangeConnectivity
