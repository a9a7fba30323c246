import ExchangeConnectivity.RestClient
import ExchangeConnectivity.RestClientAsync

/-!
# Header fields of a message

A field that is set replaces the fields of its name, whatever the case, so a
message has one field for each name: the last header of the caller, or what the
client sets before it looks at the headers.  Only the length of a body is set
after them.
-/

namespace ExchangeConnectivity

open ByteStrings

namespace HttpExchange

/-- The value of the last header of a name, ignoring case. -/
def lastNamed (headers : Headers) (name : Bytes) : Option Bytes :=
  firstNamed headers.reverse name

/-- What the client sets for a name before it looks at the headers. -/
def ClientConfig.defaultField? (config : ClientConfig) (name : Bytes) : Option Bytes :=
  if ascii "accept" = toLower name then some (ascii "*/*")
  else if ascii "user-agent" = toLower name then some config.userAgent
  else if ascii "host" = toLower name then some config.hostHeader
  else none

/-- The last header that the caller gives for a name, or else what the client
sets itself. -/
def ClientConfig.givenField? (config : ClientConfig) (headers : Headers) (name : Bytes) :
    Option Bytes :=
  (lastNamed headers name).or (config.defaultField? name)

theorem lastNamed_cons (header : Bytes × Bytes) (headers : Headers) (name : Bytes) :
    lastNamed (header :: headers) name =
      (lastNamed headers name).or
        (if toLower header.1 = toLower name then some header.2 else none) := by
  rw [lastNamed, List.reverse_cons, firstNamed_append, firstNamed_singleton]
  rfl

section Messages

variable (beast : Beast) (config : ClientConfig) (request : Request)

def setHeaders (headers : Headers) (message : HttpMessage) : HttpMessage :=
  headers.foldl (fun message header => beast.set message header.1 header.2) message

/-- The headers are set one after the other, so the last one of a name stays. -/
theorem setHeaders_field? (headers : Headers) (message : HttpMessage) (name : Bytes) :
    (setHeaders beast headers message).field? name =
      (lastNamed headers name).or (message.field? name) := by
  induction headers generalizing message with
  | nil => rfl
  | cons header headers ih =>
      rw [setHeaders, List.foldl_cons, ← setHeaders, ih, beast.set_field?, lastNamed_cons,
        Option.or_assoc]
      split <;> rfl

theorem setHeaders_unambiguous (headers : Headers) {message : HttpMessage}
    (unambiguous : message.Unambiguous) : (setHeaders beast headers message).Unambiguous := by
  induction headers generalizing message with
  | nil => exact unambiguous
  | cons header headers ih => exact ih (beast.set_unambiguous message _ _ unambiguous)

/-- Headers touch nothing but the fields. -/
theorem setHeaders_eq (headers : Headers) (message : HttpMessage) :
    setHeaders beast headers message =
      { message with fields := (setHeaders beast headers message).fields } := by
  induction headers generalizing message with
  | nil => rfl
  | cons header headers ih =>
      rw [setHeaders, List.foldl_cons, ← setHeaders, ih, beast.set_eq]

/-- The message before the headers of the caller. -/
def ClientConfig.bareMessage : HttpMessage :=
  let message : HttpMessage := { method := request.method, target := request.target }
  let message := beast.set message (ascii "Host") config.hostHeader
  let message := beast.set message (ascii "User-Agent") config.userAgent
  beast.set message (ascii "Accept") (ascii "*/*")

/-- The message before its payload is prepared. -/
def ClientConfig.headedMessage : HttpMessage :=
  { setHeaders beast request.headers (config.bareMessage beast request) with body := request.body }

theorem headedMessage_field? (name : Bytes) :
    (config.headedMessage beast request).field? name =
      config.givenField? request.headers name := by
  have empty : HttpMessage.field? { method := request.method, target := request.target } name =
      none := rfl
  have bare : (config.bareMessage beast request).field? name = config.defaultField? name := by
    rw [ClientConfig.bareMessage, beast.set_field?, beast.set_field?, beast.set_field?, empty]
    rfl
  rw [ClientConfig.givenField?, ← bare]
  exact setHeaders_field? beast request.headers _ name

theorem headedMessage_unambiguous : (config.headedMessage beast request).Unambiguous := by
  have empty : HttpMessage.Unambiguous { method := request.method, target := request.target } :=
    List.nodup_nil
  exact setHeaders_unambiguous beast request.headers (beast.set_unambiguous _ _ _
    (beast.set_unambiguous _ _ _ (beast.set_unambiguous _ _ _ empty)))

theorem headedMessage_eq :
    config.headedMessage beast request =
      { method := request.method, target := request.target, body := request.body
        fields := (config.headedMessage beast request).fields } := by
  rw [ClientConfig.headedMessage, setHeaders_eq, ClientConfig.bareMessage, beast.set_eq,
    beast.set_eq, beast.set_eq]

theorem message_eq :
    config.message beast request =
      if PreparesPayload request.method request.body then
        beast.preparePayload (config.headedMessage beast request)
      else config.headedMessage beast request := by
  have whole : config.message beast request =
      if PreparesPayload request.method request.body then
        beast.preparePayload (config.headedMessage beast request)
      else setHeaders beast request.headers (config.bareMessage beast request) := rfl
  rw [whole]
  split
  · rfl
  next plain =>
    have noBody : request.body = [] := by
      by_contra body
      exact plain (.inl body)
    rw [ClientConfig.headedMessage, setHeaders_eq, ClientConfig.bareMessage, beast.set_eq,
      beast.set_eq, beast.set_eq, noBody]

variable {beast request}

theorem message_field? (notTrace : request.method = .trace → request.body = []) (name : Bytes) :
    (config.message beast request).field? name =
      if PreparesPayload request.method request.body then
        if ascii "content-length" = toLower name then
          if SetsLength request.method request.body then
            some (ascii (toString request.body.length))
          else none
        else if ascii "transfer-encoding" = toLower name then
          (config.givenField? request.headers name).bind beast.withoutChunked
        else config.givenField? request.headers name
      else config.givenField? request.headers name := by
  have headed := headedMessage_eq beast config request
  have given := headedMessage_field? beast config request name
  have methodEq : (config.headedMessage beast request).method = request.method := by rw [headed]
  have bodyEq : (config.headedMessage beast request).body = request.body := by rw [headed]
  rw [message_eq]
  split
  next prepares =>
    have unlessTrace : request.method ≠ .trace := by
      intro isTrace
      rcases prepares with body | posts
      · exact body (notTrace isTrace)
      · simp [isTrace] at posts
    rw [beast.preparePayload_field? _ name (headedMessage_unambiguous beast config request)
      (by rw [methodEq, bodyEq]; exact prepares) (by rw [methodEq]; exact unlessTrace),
      methodEq, bodyEq, given]
  next => exact given

/-- A message that Beast accepts carries the request, and every name has one
field in it: in front of a payload the length of the body and what is left of a
transfer encoding without the chunked coding, and else the last header that the
caller gives or what the client sets itself. -/
theorem message_fields (accepted : beast.accepts request) :
    (config.message beast request).Unambiguous ∧
      (config.message beast request).method = request.method ∧
      (config.message beast request).target = request.target ∧
      (config.message beast request).body = request.body ∧
      (∀ name, (config.message beast request).field? name =
        if PreparesPayload request.method request.body then
          if ascii "content-length" = toLower name then
            if SetsLength request.method request.body then
              some (ascii (toString request.body.length))
            else none
          else if ascii "transfer-encoding" = toLower name then
            (config.givenField? request.headers name).bind beast.withoutChunked
          else config.givenField? request.headers name
        else config.givenField? request.headers name) ∧
      ∀ coding, PreparesPayload request.method request.body →
        lastNamed request.headers (ascii "Transfer-Encoding") = some coding →
        toLower coding = ascii "chunked" →
          (config.message beast request).field? (ascii "Transfer-Encoding") = none := by
  have headed := headedMessage_eq beast config request
  have unambiguous := headedMessage_unambiguous beast config request
  have fields := @message_field? beast config request (beast.accepts_trace request accepted)
  have carried : config.message beast request =
      { method := request.method, target := request.target, body := request.body
        fields := (config.message beast request).fields } := by
    rw [message_eq]
    split
    · rw [beast.preparePayload_eq, headed]
    · exact headed
  refine ⟨?_, ?_, ?_, ?_, fields, ?_⟩
  · rw [message_eq]
    split
    · exact beast.preparePayload_unambiguous _ unambiguous
    · exact unambiguous
  · rw [carried]
  · rw [carried]
  · rw [carried]
  · intro coding prepares isGiven chunked
    have codingName : toLower (ascii "Transfer-Encoding") = ascii "transfer-encoding" := rfl
    have given : config.givenField? request.headers (ascii "Transfer-Encoding") = some coding := by
      rw [ClientConfig.givenField?, isGiven, Option.some_or]
    rw [fields, if_pos prepares, codingName, if_neg (by decide), if_pos rfl, given,
      Option.bind_some, beast.withoutChunked_chunked coding chunked]

/-- A caller that names another length and another host: the length is put
right, the host stays. -/
theorem message_fields_host :
    ∃ beast : Beast, ∃ config : ClientConfig, ∃ request : Request,
      (config.message beast request).field? (ascii "Content-Length") = some (ascii "1") ∧
        (config.message beast request).field? (ascii "Host") = some (ascii "b") ∧
        (config.message beast request).field? (ascii "Transfer-Encoding") = none := by
  let config : ClientConfig := { host := ascii "a", userAgent := ascii "agent" }
  let request : Request :=
    { method := .post, target := ascii "/", body := [1]
      headers :=
        [(ascii "HOST", ascii "b"), (ascii "content-length", ascii "9"),
          (ascii "transfer-encoding", ascii "Chunked")] }
  obtain ⟨-, -, -, -, fields, chunked⟩ :=
    @message_fields Beast.simple config request (by decide)
  refine ⟨Beast.simple, config, request, ?_, ?_, ?_⟩
  · rw [fields (ascii "Content-Length")]
    decide
  · rw [fields (ascii "Host")]
    decide
  · exact chunked (ascii "Chunked") (by decide) (by decide) (by decide)

end Messages

section ContentTypes

variable {headers : Headers} {name : Bytes}

theorem lastNamed_eq_none_iff :
    lastNamed headers name = none ↔ ∀ header ∈ headers, toLower header.1 ≠ toLower name := by
  simp [lastNamed, firstNamed]

theorem no_contentType_iff (isContentType : ascii "content-type" = toLower name) :
    hasContentTypeHeader headers = false ↔ lastNamed headers name = none := by
  rw [lastNamed_eq_none_iff, ← isContentType]
  simp [hasContentTypeHeader]

theorem lastNamed_assign (absent : hasContentTypeHeader headers = false) (contentType : Bytes) :
    lastNamed (assign headers (ascii "Content-Type") contentType) name =
      if ascii "content-type" = toLower name then some contentType
      else lastNamed headers name := by
  have lowerKey : toLower (ascii "Content-Type") = ascii "content-type" := rfl
  induction headers with
  | nil => rw [assign, lastNamed_cons, lowerKey]; rfl
  | cons header headers ih =>
      obtain ⟨key, value⟩ := header
      obtain ⟨different, others⟩ : toLower key ≠ ascii "content-type" ∧
          hasContentTypeHeader headers = false := by
        simpa [hasContentTypeHeader] using absent
      rw [assign, if_neg (by rintro rfl; exact different lowerKey)]
      split
      · rw [lastNamed_cons, lowerKey]
        split
        next isContentType =>
          rw [(no_contentType_iff isContentType).mp absent]
          rfl
        next => rw [Option.or_none]
      · rw [lastNamed_cons, lastNamed_cons, ih others]
        split
        · rfl
        · rfl

/-- The caller's content type stays, however its name is written. -/
theorem lastNamed_withContentType (headers : Headers) (contentType name : Bytes) :
    lastNamed (RestClient.withContentType headers contentType) name =
      if ascii "content-type" = toLower name then
        some ((lastNamed headers name).getD contentType)
      else lastNamed headers name := by
  rw [RestClient.withContentType]
  cases present : hasContentTypeHeader headers with
  | false =>
      rw [if_pos (by simp), lastNamed_assign present]
      split
      next isContentType =>
        rw [(no_contentType_iff isContentType).mp present]
        rfl
      next => rfl
  | true =>
      rw [if_neg (by simp)]
      split
      next isContentType =>
        have found : lastNamed headers name ≠ none := by
          rw [ne_eq, ← no_contentType_iff isContentType, present]
          simp
        obtain ⟨value, valueEq⟩ := Option.ne_none_iff_exists'.mp found
        rw [valueEq]
        rfl
      next => rfl

end ContentTypes

/-- A message of `post` or `put`: the length of the body, even if it is empty,
what is left of a transfer encoding without the chunked coding, a content type,
and else what the caller gives or the client sets. -/
structure Posted (beast : Beast) (config : ClientConfig) (method : Verb)
    (target body contentType : Bytes) (headers : Headers) (message : HttpMessage) : Prop where
  method_eq : message.method = method
  target_eq : message.target = target
  body_eq : message.body = body
  fields : ∀ name, message.field? name =
    if ascii "content-length" = toLower name then some (ascii (toString body.length))
    else if ascii "transfer-encoding" = toLower name then
      (lastNamed headers name).bind beast.withoutChunked
    else if ascii "content-type" = toLower name then
      some ((lastNamed headers name).getD contentType)
    else config.givenField? headers name

section Posts

variable (beast : Beast) (config : ClientConfig) (target body contentType : Bytes)
  (headers : Headers)

theorem message_posted {request : Request} (posts : request.method = .post ∨ request.method = .put)
    (targetEq : request.target = target) (bodyEq : request.body = body)
    (headersEq : request.headers = RestClient.withContentType headers contentType) :
    Posted beast config request.method target body contentType headers
      (config.message beast request) := by
  have notTrace : request.method = .trace → request.body = [] := by
    intro isTrace
    simp [isTrace] at posts
  have prepares : PreparesPayload request.method request.body := by
    rcases posts with posts | posts <;> exact .inr (by simp [posts])
  have sets : SetsLength request.method request.body := .inr posts.symm
  have carried : config.message beast request =
      { method := request.method, target := request.target, body := request.body
        fields := (config.message beast request).fields } := by
    rw [message_eq, if_pos prepares, beast.preparePayload_eq, headedMessage_eq]
  refine ⟨by rw [carried], by rw [carried, targetEq], by rw [carried, bodyEq], fun name => ?_⟩
  rw [message_field? config notTrace, if_pos prepares, if_pos sets, bodyEq,
    ClientConfig.givenField?, ClientConfig.givenField?, headersEq, lastNamed_withContentType]
  by_cases isCoding : ascii "transfer-encoding" = toLower name
  · have noDefault : config.defaultField? name = none := by
      rw [ClientConfig.defaultField?, ← isCoding]
      rfl
    have notType : ascii "content-type" ≠ toLower name := by
      rw [← isCoding]
      decide
    rw [if_pos isCoding, if_neg notType, noDefault, Option.or_none, if_pos isCoding]
  · rw [if_neg isCoding, if_neg isCoding]
    split_ifs <;> rfl

/-- The message that a call of the synchronous client hands over first, whose
exchange ends the call when it fails. -/
def HandsOver (call : RestClient.Exchange → List Request × Except RestClient.Failure HttpResponse)
    (message : HttpMessage) : Prop :=
  ∀ tell : HttpMessage → RestClient.Failure,
    (call fun _ message => .error (tell message)).2 = .error (tell message)

theorem execute_handsOver {request : Request} (accepted : beast.accepts request) :
    HandsOver (fun exchange => RestClient.execute beast config exchange request 0)
      (config.message beast request) := by
  intro tell
  dsimp only
  rw [RestClient.execute, if_neg (not_not_intro accepted)]

/-- The operation that a call of the asynchronous client starts carries the
message of its request. -/
theorem call_carries {config : RestClientAsync.Config} {client next : RestClientAsync.Client}
    {request : Request}
    (called : RestClientAsync.step beast config client (.call request) = some next) :
    ∃ pending : RestClientAsync.Pending, next.outstanding = client.outstanding ++ [pending] ∧
      pending.st.req = config.message beast request := by
  obtain ⟨-, rfl⟩ := RestClientAsync.step_call_eq_some_iff.mp called
  rw [RestClientAsync.onCall, RestClientAsync.startRequest]
  cases client.idlePool with
  | nil => exact ⟨_, rfl, rfl⟩
  | cons index rest => exact ⟨_, rfl, rfl⟩

/-- What the `post` and `put` of either client send, for each request that Beast
accepts. -/
theorem posted_message_fields (config : RestClientAsync.Config) :
    (beast.accepts (RestClientAsync.post target body contentType headers) →
      ∃ message, Posted beast config.toClientConfig .post target body contentType headers message ∧
        HandsOver (fun exchange =>
          RestClient.post beast config.toClientConfig exchange target body contentType headers)
          message) ∧
    (beast.accepts (RestClientAsync.put target body contentType headers) →
      ∃ message, Posted beast config.toClientConfig .put target body contentType headers message ∧
        HandsOver (fun exchange =>
          RestClient.put beast config.toClientConfig exchange target body contentType headers)
          message) ∧
    (∀ client next, RestClientAsync.step beast config client
        (.call (RestClientAsync.post target body contentType headers)) = some next →
      ∃ pending : RestClientAsync.Pending, next.outstanding = client.outstanding ++ [pending] ∧
        Posted beast config.toClientConfig .post target body contentType headers pending.st.req) ∧
    ∀ client next, RestClientAsync.step beast config client
        (.call (RestClientAsync.put target body contentType headers)) = some next →
      ∃ pending : RestClientAsync.Pending, next.outstanding = client.outstanding ++ [pending] ∧
        Posted beast config.toClientConfig .put target body contentType headers pending.st.req := by
  have post := @message_posted beast config.toClientConfig target body contentType headers
    (RestClientAsync.post target body contentType headers) (.inl rfl) rfl rfl rfl
  have put := @message_posted beast config.toClientConfig target body contentType headers
    (RestClientAsync.put target body contentType headers) (.inr rfl) rfl rfl rfl
  refine ⟨fun accepted => ⟨_, post, ?_⟩, fun accepted => ⟨_, put, ?_⟩, ?_, ?_⟩
  · exact execute_handsOver beast config.toClientConfig accepted
  · exact execute_handsOver beast config.toClientConfig accepted
  · intro client next called
    obtain ⟨pending, outstandingEq, carries⟩ := call_carries beast called
    exact ⟨pending, outstandingEq, by rw [carries]; exact post⟩
  · intro client next called
    obtain ⟨pending, outstandingEq, carries⟩ := call_carries beast called
    exact ⟨pending, outstandingEq, by rw [carries]; exact put⟩

/-- Either client sends an empty body with its length, the content type of the
caller and no chunked coding. -/
theorem posted_message_fields_given :
    ∃ config : RestClientAsync.Config, ∃ headers : Headers, ∃ message pending next,
      HandsOver (fun exchange =>
          RestClient.put .simple config.toClientConfig exchange (ascii "/") []
            (ascii "application/json") headers) message ∧
        RestClientAsync.step .simple config {} (.call (RestClientAsync.put (ascii "/") []
          (ascii "application/json") headers)) = some next ∧
        next.outstanding = [pending] ∧
          ∀ sent ∈ [message, pending.st.req],
            sent.field? (ascii "Content-Type") = some (ascii "text/plain") ∧
              sent.field? (ascii "Content-Length") = some (ascii "0") ∧
                sent.field? (ascii "Transfer-Encoding") = none := by
  let config : RestClientAsync.Config := { host := ascii "a" }
  let headers : Headers :=
    [(ascii "content-TYPE", ascii "text/plain"), (ascii "transfer-encoding", ascii "chunked")]
  obtain ⟨-, put, -, asyncPut⟩ := posted_message_fields .simple (ascii "/") []
    (ascii "application/json") headers config
  obtain ⟨message, posted, handsOver⟩ := put (by decide)
  obtain ⟨next, called⟩ : ∃ next, RestClientAsync.step .simple config {} (.call
      (RestClientAsync.put (ascii "/") [] (ascii "application/json") headers)) = some next :=
    ⟨_, RestClientAsync.step_call_eq_some_iff.mpr ⟨by decide, rfl⟩⟩
  obtain ⟨pending, outstandingEq, asyncPosted⟩ := asyncPut {} next called
  refine ⟨config, headers, message, pending, next, handsOver, called, outstandingEq, ?_⟩
  have given : ∀ {sent}, Posted .simple config.toClientConfig .put (ascii "/") []
      (ascii "application/json") headers sent →
      sent.field? (ascii "Content-Type") = some (ascii "text/plain") ∧
        sent.field? (ascii "Content-Length") = some (ascii "0") ∧
          sent.field? (ascii "Transfer-Encoding") = none := by
    intro sent isPosted
    rw [isPosted.fields, isPosted.fields, isPosted.fields]
    decide
  rw [List.forall_mem_cons, List.forall_mem_singleton]
  exact ⟨given posted, given asyncPosted⟩

end Posts

end HttpExchange

end ExchangeConnectivity
