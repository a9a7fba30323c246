import ExchangeConnectivity.FailingComputations
import ExchangeConnectivity.OrderSubmissionCallbacks
import ExchangeConnectivity.RestTransmissions

/-!
# What has become of an order

The answer of a call of the spot client or the gateway tells whether its
request has been sent: a refusal comes without one, a success or a refusal of
the exchange with exactly one, and only after a transport error it is open.
-/

namespace ExchangeConnectivity

open ActionRuns ByteStrings FailingComputations RestSession

/-- The messages that the sessions of a call have given to `async_write`. -/
def transmitted (sessions : List Session) : List HttpMessage :=
  sessions.flatMap fun session => session.httpRequest.toList

/-- What an answer says about the request of its call. -/
inductive Fate
  | kept
  | sent
  | undecided
  deriving DecidableEq

/-- The request of the call has met its fate. -/
def Met {Answer : Type} (effects : Effects Answer) (sessions : List Session) : Fate → Prop
  | .kept => effects.requests = [] ∧ transmitted sessions = []
  | .sent => transmitted sessions = effects.requests.map fun handed => httpMessage handed.1
  | .undecided => True

/-- A call refuses its arguments, or hands over one request whose answers
depend on whether there is a response. -/
inductive Tells {Answer : Type} (fate : Answer → Fate) (effects : Effects Answer) : Prop
  | refuses (noRequest : effects.requests = [])
      (kept : ∀ answer ∈ effects.outputs, fate answer = .kept)
  | handsOver (silent : effects.outputs = []) (request : HttpRequest)
      (handler : Response → List Answer) (requestsEq : effects.requests = [(request, handler)])
      (sent : ∀ response, ∀ answer ∈ handler (.ok response), fate answer = .sent)
      (unknown : ∀ failure, ∀ answer ∈ handler (.error failure), fate answer = .undecided)

/-- In every run of the call at most one message is sent, and every answer
tells what has become of it. -/
structure TransmissionContract {Error Result : Type}
    (call : Handler (Except Error Result) (Except Error Result) →
      Effects (Except Error Result))
    (fate : Except Error Result → Fate) : Prop where
  at_most_one : ∀ throws sessions, RunOf throws (call record) sessions →
    (transmitted sessions).length ≤ 1
  answer_tells : ∀ throws sessions, RunOf throws (call record) sessions →
    ∀ answer ∈ answers (call record) sessions, Met (call record) sessions (fate answer)

theorem sent_of_answered {throws : HttpMessage → Bool} {request : HttpRequest}
    {completions : List Completion} {session : Session} {response : HttpResponse}
    (reached : runFrom (step throws) (run request true) completions = some session)
    (answered : .ok response ∈ session.invocations) :
    session.httpRequest = some (httpMessage request) := by
  have sent := sent_of_run reached
  have started : session.started = through .read := sent.explained _ answered
  rw [sent.message, if_pos (by simp [started, through, pipeline])]

theorem transmissionContract_of_tells {Error Result : Type}
    {call : Handler (Except Error Result) (Except Error Result) →
      Effects (Except Error Result)}
    {fate : Except Error Result → Fate} (tells : Tells fate (call record)) :
    TransmissionContract call fate := by
  cases tells with
  | refuses noRequest kept =>
      have noSession : ∀ throws sessions, RunOf throws (call record) sessions →
          sessions = [] := by
        intro throws sessions runOf
        rwa [RunOf, noRequest, List.forall₂_nil_left_iff] at runOf
      constructor
      · intro throws sessions runOf
        rw [noSession throws sessions runOf]
        exact Nat.zero_le 1
      · intro throws sessions runOf answer member
        rw [answers, noRequest, List.zipWith_nil_left, List.flatten_nil,
          List.append_nil] at member
        rw [kept answer member, noSession throws sessions runOf]
        exact ⟨noRequest, rfl⟩
  | handsOver silent request handler requestsEq sent unknown =>
      have oneSession : ∀ throws sessions, RunOf throws (call record) sessions →
          ∃ session completions, sessions = [session] ∧
            runFrom (step throws) (run request true) completions = some session := by
        intro throws sessions runOf
        rw [RunOf, requestsEq, List.forall₂_cons_left_iff] at runOf
        obtain ⟨session, rest, ⟨completions, reached⟩, restNil, rfl⟩ := runOf
        rw [List.forall₂_nil_left_iff] at restNil
        exact ⟨session, completions, by rw [restNil], reached⟩
      constructor
      · intro throws sessions runOf
        obtain ⟨session, completions, rfl, -⟩ := oneSession throws sessions runOf
        rw [transmitted, List.flatMap_singleton]
        exact Option.length_toList_le
      · intro throws sessions runOf answer member
        obtain ⟨session, completions, rfl, reached⟩ := oneSession throws sessions runOf
        simp only [answers, silent, requestsEq, List.nil_append, List.zipWith_cons_cons,
          List.zipWith_nil_left, List.flatten_singleton, List.mem_flatMap] at member
        obtain ⟨response, given, member⟩ := member
        cases response with
        | error failure =>
            rw [unknown failure answer member]
            trivial
        | ok response =>
            rw [sent response answer member, Met, requestsEq, transmitted,
              List.flatMap_singleton, sent_of_answered reached given]
            rfl

namespace BinanceSpotClient

def fateOf : BinanceApiErrorCode → Fate
  | .invalidRequest | .signingFailed => .kept
  | .transportError => .undecided
  | .exchangeRejected | .invalidResponse => .sent

def fate {Result : Type} : Except BinanceApiError Result → Fate
  | .ok _ => .sent
  | .error error => fateOf error.code

/-- The errors found in a response. -/
def FoundInResponse (error : BinanceApiError) : Prop :=
  fateOf error.code = .sent

theorem fate_of_failsOnly {Result : Type} {result : Except BinanceApiError Result}
    (failsOnly : FailsOnly FoundInResponse result) : fate result = .sent := by
  cases result with
  | ok value => rfl
  | error error => exact failsOnly error rfl

section Parsers

variable (simdjson : Simdjson.Library)

theorem acceptedObject_failsOnly (response : HttpResponse) (invalid rejected : Bytes) :
    FailsOnly FoundInResponse (acceptedObject simdjson response invalid rejected) := by
  rw [acceptedObject]
  cases simdjson.parse response.body with
  | error error => exact failsOnly_error rfl
  | ok json =>
      dsimp only
      split
      · exact failsOnly_error rfl
      · split
        · exact failsOnly_error rfl
        · exact failsOnly_ok _ json

theorem orderIdAndStatus_failsOnly (json : Json) (missing : Bytes) :
    FailsOnly FoundInResponse (orderIdAndStatus simdjson json missing) := by
  rw [orderIdAndStatus]
  dsimp only
  split
  · exact failsOnly_error rfl
  · exact failsOnly_ok _ _

theorem parseOrderResponse_failsOnly (response : HttpResponse) (clientOrderId : UInt64) :
    FailsOnly FoundInResponse (parseOrderResponse simdjson response clientOrderId) := by
  refine (acceptedObject_failsOnly simdjson response _ _).bind fun json => ?_
  exact (orderIdAndStatus_failsOnly simdjson json _).bind fun found => failsOnly_ok _ _

theorem parseCancelResponse_failsOnly (response : HttpResponse) :
    FailsOnly FoundInResponse (parseCancelResponse simdjson response) := by
  refine (acceptedObject_failsOnly simdjson response _ _).bind fun json => ?_
  refine (orderIdAndStatus_failsOnly simdjson json _).bind fun found => ?_
  exact failsOnly_ok _ _

theorem parseBalance_failsOnly (balance : Json) :
    FailsOnly FoundInResponse (parseBalance simdjson balance) := by
  rw [parseBalance]
  dsimp only
  split
  · exact failsOnly_error rfl
  · exact failsOnly_ok _ _

theorem parseBalancesResponse_failsOnly (response : HttpResponse) :
    FailsOnly FoundInResponse (parseBalancesResponse simdjson response) := by
  refine (acceptedObject_failsOnly simdjson response _ _).bind fun json => ?_
  cases simdjson.field json "balances" >>= simdjson.getArray with
  | error error => exact failsOnly_error rfl
  | ok balances => exact FailsOnly.mapM (parseBalance_failsOnly simdjson) balances

end Parsers

section Calls

variable (hmac : Bytes → Int32 → Bytes → Option Bytes)
variable (simdjson : Simdjson.Library)
variable (client : Client) (timestamp : UInt64)

/-- A call that refuses its arguments with this error. -/
theorem tells_refuses {Result : Type} {error : BinanceApiError}
    (kept : fateOf error.code = .kept) :
    Tells fate { outputs := [(.error error : Except BinanceApiError Result)] } := by
  refine .refuses rfl fun answer member => ?_
  obtain rfl := List.mem_singleton.mp member
  exact kept

theorem asyncSignedRequest_tells {Result : Type} (method : Verb) (endpoint query : Bytes)
    {read : HttpResponse → Except BinanceApiError Result}
    (failsOnly : ∀ response, FailsOnly FoundInResponse (read response)) :
    Tells fate (asyncSignedRequest hmac client timestamp method endpoint query
      (readingHandler read fun answer => [answer])) := by
  rw [asyncSignedRequest.eq_def, readingHandler]
  dsimp only
  split
  · exact tells_refuses rfl
  · split
    · exact tells_refuses rfl
    · refine .handsOver rfl _ _ rfl ?_ ?_
      · intro response answer member
        obtain rfl := List.mem_singleton.mp member
        exact fate_of_failsOnly (failsOnly response)
      · intro failure answer member
        obtain rfl := List.mem_singleton.mp member
        rfl

theorem sendOrder_transmits (request : OrderRequest) (clientOrderId : UInt64) :
    TransmissionContract (sendOrder hmac simdjson client timestamp request clientOrderId) fate := by
  apply transmissionContract_of_tells
  simp only [sendOrder, record]
  split
  · exact tells_refuses rfl
  · split
    · exact tells_refuses rfl
    · exact asyncSignedRequest_tells hmac client timestamp _ _ _
        (parseOrderResponse_failsOnly simdjson · clientOrderId)

theorem cancelOrder_transmits (exchangeOrderId : UInt64) :
    TransmissionContract (cancelOrder hmac simdjson client timestamp exchangeOrderId) fate := by
  apply transmissionContract_of_tells
  simp only [cancelOrder, record]
  split
  · exact tells_refuses rfl
  · exact asyncSignedRequest_tells hmac client timestamp _ _ _
      (parseCancelResponse_failsOnly simdjson)

theorem getBalances_transmits :
    TransmissionContract (getBalances hmac simdjson client timestamp) fate := by
  apply transmissionContract_of_tells
  simp only [getBalances, record]
  exact asyncSignedRequest_tells hmac client timestamp _ _ _
    (parseBalancesResponse_failsOnly simdjson)

end Calls

end BinanceSpotClient

namespace BinanceOrderGateway

def fateOf : OrderSubmissionErrorCode → Fate
  | .invalidInstrument | .invalidOrder | .signingFailed => .kept
  | .transportError => .undecided
  | .exchangeRejected | .invalidResponse => .sent

def fate : SubmissionResponse → Fate
  | .ok _ => .sent
  | .error error => fateOf error.code

theorem fate_parseResponse (simdjson : Simdjson.Library)
    (errorMessage : Simdjson.Error → Bytes) (response : HttpResponse) (clientOrderId : UInt64) :
    fate (parseResponse simdjson errorMessage response clientOrderId) = .sent := by
  rw [parseResponse]
  cases simdjson.parse response.body with
  | error error => rfl
  | ok json =>
      dsimp only
      split
      · rfl
      · split
        · rfl
        · split <;> rfl

theorem tells_refuses {error : OrderSubmissionError} (kept : fateOf error.code = .kept) :
    Tells fate { outputs := [(.error error : SubmissionResponse)] } := by
  refine .refuses rfl fun answer member => ?_
  obtain rfl := List.mem_singleton.mp member
  exact kept

theorem sendOrder_transmits (hmac : Bytes → Int32 → Bytes → Option Bytes)
    (simdjson : Simdjson.Library) (errorMessage : Simdjson.Error → Bytes)
    (gateway : Gateway) (timestamp : UInt64) (request : OrderRequest)
    (clientOrderId : UInt64) :
    TransmissionContract
      (sendOrder hmac simdjson errorMessage gateway timestamp request clientOrderId) fate := by
  apply transmissionContract_of_tells
  simp only [sendOrder, record]
  split
  · exact tells_refuses rfl
  · split
    · exact tells_refuses rfl
    · split
      · exact tells_refuses rfl
      · split
        · exact tells_refuses rfl
        · refine .handsOver rfl _ _ rfl ?_ ?_
          · intro response answer member
            obtain rfl := List.mem_singleton.mp member
            exact fate_parseResponse simdjson errorMessage response clientOrderId
          · intro failure answer member
            obtain rfl := List.mem_singleton.mp member
            rfl

end BinanceOrderGateway

end ExchangeConnectivity
