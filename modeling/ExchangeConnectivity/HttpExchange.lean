import ExchangeConnectivity.HttpMessages

/-!
# HTTP exchanges of the REST clients

What `rest_client_2/rest_client.cpp` and
`rest_client_async/rest_client_async.cpp` have in common, each in a copy of its
own: the configuration, the message built for a request, the response handed
out, and the target of a redirect.
-/

namespace ExchangeConnectivity

open ByteStrings

namespace HttpExchange

/-- `headers.emplace(key, value)`, which leaves a key there is as it is. -/
def emplace : Headers → Bytes → Bytes → Headers
  | [], key, value => [(key, value)]
  | (first, present) :: rest, key, value =>
      if key = first then (first, present) :: rest
      else if key < first then (key, value) :: (first, present) :: rest
      else (first, present) :: emplace rest key value

/-- `headers[key] = value`. -/
def assign : Headers → Bytes → Bytes → Headers
  | [], key, value => [(key, value)]
  | (first, present) :: rest, key, value =>
      if key = first then (first, value) :: rest
      else if key < first then (key, value) :: (first, present) :: rest
      else (first, present) :: assign rest key value

/-- A response as the parser delivers it.  `keepAlive` is the value of
`message::keep_alive`, which looks at the version and the `Connection` field
only; `delimitedByClose` tells that the body ended with the connection. -/
structure WireResponse where
  status : Nat
  reason : Bytes
  body : Bytes
  fields : List (Bytes × Bytes)
  keepAlive : Bool
  delimitedByClose : Bool
  deriving DecidableEq

structure HttpResponse where
  status : Nat := 0
  reason : Bytes := []
  body : Bytes := []
  headers : Headers := []
  method : Verb := .get
  deriving DecidableEq

def HttpResponse.header (response : HttpResponse) (key : Bytes) : Bytes :=
  (response.headers.lookup (toLower key)).getD []

def toHttpResponse (method : Verb) (response : WireResponse) : HttpResponse where
  status := response.status
  reason := response.reason
  body := response.body
  method := method
  headers :=
    response.fields.foldl (fun headers field => emplace headers (toLower field.1) field.2) []

/-- `hasContentTypeHeader`, and `hasHeader` for that name. -/
def hasContentTypeHeader (headers : Headers) : Bool :=
  headers.any fun header => toLower header.1 = ascii "content-type"

structure ClientConfig where
  host : Bytes
  port : Bytes := []
  userAgent : Bytes
  https : Bool := true
  verifyPeer : Bool := true
  followRedirects : Bool := true
  maxRedirects : Nat := 5

/-- The port, as the constructors complete it. -/
def ClientConfig.effectivePort (config : ClientConfig) : Bytes :=
  if config.port = [] then
    if config.https then ascii "443" else ascii "80"
  else config.port

def ClientConfig.hostHeader (config : ClientConfig) : Bytes :=
  if (config.https ∧ config.effectivePort = ascii "443") ∨
      (¬ config.https ∧ config.effectivePort = ascii "80") then
    config.host
  else config.host ++ ascii ":" ++ config.effectivePort

/-- The message sent for a request. -/
def ClientConfig.message (config : ClientConfig) (beast : Beast) (request : Request) :
    HttpMessage :=
  let message : HttpMessage := { method := request.method, target := request.target }
  let message := beast.set message (ascii "Host") config.hostHeader
  let message := beast.set message (ascii "User-Agent") config.userAgent
  let message := beast.set message (ascii "Accept") (ascii "*/*")
  let message :=
    request.headers.foldl (fun message header => beast.set message header.1 header.2) message
  if PreparesPayload request.method request.body then
    beast.preparePayload { message with body := request.body }
  else message

def isRedirectStatus (status : Nat) : Bool :=
  status ∈ [301, 302, 303, 307, 308]

/-- A failure carries the text of the `std::runtime_error`. -/
def extractRedirectPath (location expectedHost : Bytes) : Except Bytes Bytes :=
  match afterFirst (ascii "://") location with
  | some rest =>
      let hostPort := rest.takeWhile (· ≠ '/'.toUInt8)
      let locHost := hostPort.takeWhile (· ≠ ':'.toUInt8)
      if toLower locHost ≠ toLower expectedHost then
        .error (ascii "Cross-host redirect not allowed: " ++ location)
      else if rest.dropWhile (· ≠ '/'.toUInt8) = [] then .ok (ascii "/")
      else .ok (rest.dropWhile (· ≠ '/'.toUInt8))
  | none =>
      if location.head? = some '/'.toUInt8 then .ok location
      else .ok (ascii "/" ++ location)

end HttpExchange

end ExchangeConnectivity
