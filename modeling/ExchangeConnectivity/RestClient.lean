import ExchangeConnectivity.HttpExchange

/-!
# The synchronous REST client

`rest_client_2/rest_client.cpp`: every request is sent on a connection of its
own, and a redirect is followed by a recursive call.
-/

namespace ExchangeConnectivity

open ByteStrings HttpExchange

namespace RestClient

/-- The exceptions `execute` lets out: that of a message Beast refuses to build,
that of a redirect to another host, and whatever the exchange throws. -/
inductive Failure
  | invalidMessage
  | crossHostRedirect (what : Bytes)
  | transport (what : Bytes)
  deriving DecidableEq

def resolveRedirect (config : ClientConfig) (location : Bytes) : Except Bytes Bytes :=
  extractRedirectPath location config.host

/-- Connecting, the handshake, the write and the read of one message, which is
also told the request of the message. -/
abbrev Exchange := Request → HttpMessage → Except Failure WireResponse

section Requests

/-! Boost.Beast and the exchange of a message are parameters. -/

variable (beast : Beast) (config : ClientConfig) (exchange : Exchange)

/-- The requests sent, and the response or the exception in the end. -/
def execute (request : Request) (redirectCount : Nat) :
    List Request × Except Failure HttpResponse :=
  if ¬ beast.accepts request then ([], .error .invalidMessage)
  else
    match exchange request (config.message beast request) with
    | .error failure => ([request], .error failure)
    | .ok response =>
        let out := toHttpResponse request.method response
        let location := out.header (ascii "Location")
        if config.followRedirects ∧ isRedirectStatus out.status ∧
            redirectCount < config.maxRedirects then
          if location ≠ [] then
            let newMethod := if out.status = 303 then .get else request.method
            let newBody := if out.status = 303 then [] else request.body
            match resolveRedirect config location with
            | .error what => ([request], .error (.crossHostRedirect what))
            | .ok newTarget =>
                let later := execute
                  { method := newMethod, target := newTarget, body := newBody
                    headers := request.headers }
                  (redirectCount + 1)
                (request :: later.1, later.2)
          else ([request], .ok out)
        else ([request], .ok out)
termination_by config.maxRedirects - redirectCount

def request (method : Verb) (target body : Bytes) (headers : Headers) :
    List Request × Except Failure HttpResponse :=
  execute beast config exchange { method, target, body, headers } 0

def get (target : Bytes) (headers : Headers) : List Request × Except Failure HttpResponse :=
  request beast config exchange .get target [] headers

def withContentType (headers : Headers) (contentType : Bytes) : Headers :=
  if ¬ hasContentTypeHeader headers then assign headers (ascii "Content-Type") contentType
  else headers

def post (target body contentType : Bytes) (headers : Headers) :
    List Request × Except Failure HttpResponse :=
  request beast config exchange .post target body (withContentType headers contentType)

def put (target body contentType : Bytes) (headers : Headers) :
    List Request × Except Failure HttpResponse :=
  request beast config exchange .put target body (withContentType headers contentType)

def del (target : Bytes) (headers : Headers) : List Request × Except Failure HttpResponse :=
  request beast config exchange .delete target [] headers

end Requests

end RestClient

end ExchangeConnectivity
