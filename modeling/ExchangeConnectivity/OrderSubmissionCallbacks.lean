import ExchangeConnectivity.BinanceOrderGateway
import ExchangeConnectivity.RestSessionCompletion

/-!
# One answer for every call

A call of the spot client or the gateway either refuses its arguments and
calls its handler at once, or hands over one request whose response handler
calls it.  Together with the sessions that run those requests, every call is
answered exactly once.
-/

namespace ExchangeConnectivity

open ActionRuns ByteStrings RestSession

/-- The handler that records what it is called with. -/
def record {Answer : Type} : Handler Answer Answer :=
  some fun answer => [answer]

/-- A response handler that answers once, whatever the response. -/
def AnswersOnce {Argument Answer : Type} (handler : Argument → List Answer) : Prop :=
  ∀ argument, (handler argument).length = 1

/-- Sessions reached by running the requests of a call. -/
def RunOf {Answer : Type} (throws : HttpMessage → Bool) (effects : Effects Answer)
    (sessions : List Session) : Prop :=
  List.Forall₂ (fun handed session => ∃ completions,
    runFrom (step throws) (run handed.1 true) completions = some session)
    effects.requests sessions

/-- The answers given before the call returned and by its sessions since. -/
def answers {Answer : Type} (effects : Effects Answer) (sessions : List Session) :
    List Answer :=
  effects.outputs ++
    (List.zipWith (fun handed session => session.invocations.flatMap handed.2)
      effects.requests sessions).flatten

/-- A call has answered, or has handed over one request that will. -/
inductive Answerable {Answer : Type} (effects : Effects Answer) : Prop
  | answered (outputsEq : effects.outputs.length = 1) (noRequest : effects.requests = [])
  | handedOver (silent : effects.outputs = []) (request : HttpRequest)
      (handler : Response → List Answer) (once : AnswersOnce handler)
      (requestsEq : effects.requests = [(request, handler)])

theorem length_flatMap_of_answersOnce {Argument Answer : Type}
    {handler : Argument → List Answer} (once : AnswersOnce handler)
    (arguments : List Argument) :
    (arguments.flatMap handler).length = arguments.length := by
  induction arguments with
  | nil => rfl
  | cons argument arguments ih =>
      rw [List.flatMap_cons, List.length_append, once argument, ih, List.length_cons]
      omega

/-- An answerable call is answered at most once in every run of its session,
and once when nothing is outstanding. -/
theorem Answerable.answers_once {Answer : Type} {effects : Effects Answer}
    (answerable : Answerable effects) {throws : HttpMessage → Bool}
    {sessions : List Session} (runOf : RunOf throws effects sessions) :
    (answers effects sessions).length ≤ 1 ∧
      ((∀ session ∈ sessions, session.outstanding = []) →
        (answers effects sessions).length = 1) := by
  cases answerable with
  | answered outputsEq noRequest =>
      have only : (answers effects sessions).length = 1 := by
        simp [answers, noRequest, outputsEq]
      exact ⟨Nat.le_of_eq only, fun _ => only⟩
  | handedOver silent request handler once requestsEq =>
      rw [RunOf, requestsEq, List.forall₂_cons_left_iff] at runOf
      obtain ⟨session, rest, ⟨completions, reached⟩, restNil, rfl⟩ := runOf
      rw [List.forall₂_nil_left_iff] at restNil
      subst restNil
      have answersLength : (answers effects [session]).length =
          session.invocations.length := by
        simp [answers, silent, requestsEq, length_flatMap_of_answersOnce once]
      have consistent := consistent_of_run reached
      rw [answersLength]
      exact ⟨consistent.invocations_le, fun quiet =>
        consistent.invocations_of_quiet (quiet session (List.mem_singleton_self _))⟩

/-- The error of the first check that fails. -/
def refusal {Error : Type} (checks : List (Bool × Error)) : Option Error :=
  (checks.find? fun check => check.1).map Prod.snd

theorem refusal_cons {Error : Type} (failed : Bool) (error : Error)
    (checks : List (Bool × Error)) :
    refusal ((failed, error) :: checks) =
      if failed then some error else refusal checks := by
  cases failed <;> simp [refusal]

/-- What a call owes its handler: nothing happens without one; the error of
the first failing check is given before the call returns, without a request;
at most one request is handed over; and in every run of its session the
handler is called at most once, and once when nothing is outstanding. -/
structure CallContract {Error Result : Type}
    (call : Handler (Except Error Result) (Except Error Result) →
      Effects (Except Error Result))
    (refused : Option Error) : Prop where
  without_handler : (call none).requests = []
  refuses : ∀ error, refused = some error →
    (call record).outputs = [.error error] ∧ (call record).requests = []
  one_request : (call record).requests.length ≤ 1
  answers_once : ∀ throws sessions, RunOf throws (call record) sessions →
    (answers (call record) sessions).length ≤ 1 ∧
      ((∀ session ∈ sessions, session.outstanding = []) →
        (answers (call record) sessions).length = 1)

theorem Answerable.one_request {Answer : Type} {effects : Effects Answer}
    (answerable : Answerable effects) : effects.requests.length ≤ 1 := by
  cases answerable with
  | answered _ noRequest => simp [noRequest]
  | handedOver _ _ _ _ requestsEq => simp [requestsEq]

/-- A call that begins by returning if its handler is empty. -/
def unlessEmpty {Error Result : Type}
    (call : (Except Error Result → List (Except Error Result)) →
      Effects (Except Error Result)) :
    Handler (Except Error Result) (Except Error Result) → Effects (Except Error Result)
  | none => .none
  | some handler => call handler

section Contracts

variable {Error Result : Type}

theorem callContract_of_answerable
    {call : (Except Error Result → List (Except Error Result)) →
      Effects (Except Error Result)}
    {refused : Option Error} (answerable : Answerable (call fun answer => [answer]))
    (refuses : ∀ error, refused = some error →
      (call fun answer => [answer]).outputs = [.error error] ∧
      (call fun answer => [answer]).requests = []) :
    CallContract (unlessEmpty call) refused where
  without_handler := rfl
  refuses := refuses
  one_request := answerable.one_request
  answers_once := fun _ _ runOf => answerable.answers_once runOf

/-- A call that hands over one request has no check to fail. -/
theorem callContract_asyncRequest {request : HttpRequest}
    {respond : (Except Error Result → List (Except Error Result)) →
      Response → List (Except Error Result)}
    (once : AnswersOnce (respond fun answer => [answer])) :
    CallContract (unlessEmpty fun handler => asyncRequest request (respond handler))
      (refusal ([] : List (Bool × Error))) := by
  apply callContract_of_answerable
  · exact .handedOver rfl request _ once rfl
  · intro error decision
    cases decision

/-- A check before a call that meets its contract comes first among the
checks. -/
theorem CallContract.guarded
    {call : (Except Error Result → List (Except Error Result)) →
      Effects (Except Error Result)}
    {checks : List (Bool × Error)} (contract : CallContract (unlessEmpty call) (refusal checks))
    (failed : Prop) [Decidable failed] (error : Error) :
    CallContract
      (unlessEmpty fun handler =>
        if failed then { outputs := handler (.error error) } else call handler)
      (refusal ((decide failed, error) :: checks)) := by
  rw [refusal_cons]
  by_cases fails : failed
  · simp only [if_pos fails, decide_eq_true fails, if_true]
    apply callContract_of_answerable
    · exact .answered rfl rfl
    · intro refused equal
      cases equal
      exact ⟨rfl, rfl⟩
  · simp only [if_neg fails, decide_eq_false fails, Bool.false_eq_true, if_false]
    exact contract

/-- A call that is empty without a handler meets the contract of its body. -/
theorem CallContract.of_body
    {body : (Except Error Result → List (Except Error Result)) →
      Effects (Except Error Result)}
    {refused : Option Error} (contract : CallContract (unlessEmpty body) refused)
    {call : Handler (Except Error Result) (Except Error Result) →
      Effects (Except Error Result)}
    (withoutHandler : call none = .none)
    (withHandler : ∀ handler, call (some handler) = body handler) :
    CallContract call refused := by
  have callEq : call = unlessEmpty body := by
    funext handler
    cases handler with
    | none => exact withoutHandler
    | some handler => exact withHandler handler
  rw [callEq]
  exact contract

end Contracts

namespace BinanceSpotClient

/-- The parameters the spot client accepts. -/
def ValidOrder (request : OrderRequest) (clientOrderId : UInt64) : Prop :=
  clientOrderId ≠ 0 ∧ 0 < request.quantity.raw ∧ request.side.toText ≠ [] ∧
    request.type.toText ≠ [] ∧ (request.type = .limit → 0 < request.price.raw)

instance (request : OrderRequest) (clientOrderId : UInt64) :
    Decidable (ValidOrder request clientOrderId) :=
  inferInstanceAs (Decidable (_ ∧ _))

theorem not_validOrder_iff (request : OrderRequest) (clientOrderId : UInt64) :
    ¬ ValidOrder request clientOrderId ↔
      clientOrderId = 0 ∨ request.quantity.raw ≤ 0 ∨ request.side.toText = [] ∨
        request.type.toText = [] ∨ (request.type = .limit ∧ request.price.raw ≤ 0) := by
  unfold ValidOrder
  simp only [not_and_or, not_not, Int64.not_lt, Classical.not_imp, ne_eq]

section Calls

variable (hmac : Bytes → Int32 → Bytes → Option Bytes)
variable (simdjson : Simdjson.Library)
variable (client : Client) (timestamp : UInt64)

/-- The checks `asyncSignedRequest` makes on a query. -/
def signingChecks (query : Bytes) : List (Bool × BinanceApiError) :=
  [(client.credentials.apiKey = [] ∨ client.credentials.secretKey = [],
      makeError .signingFailed (ascii "Binance API credentials are empty")),
    (createSignature hmac (signedQuery client timestamp query)
        client.credentials.secretKey = [],
      makeError .signingFailed (ascii "Failed to create HMAC SHA256 signature"))]

/-- The checks of an order, in the order they are made. -/
def orderChecks (request : OrderRequest) (clientOrderId : UInt64) :
    List (Bool × BinanceApiError) :=
  (¬ ValidOrder request clientOrderId,
      makeError .invalidRequest (ascii "Invalid order parameters")) ::
    (client.symbol = [], makeError .invalidRequest (ascii "Instrument symbol is empty")) ::
    signingChecks hmac client timestamp
      (createOrderQuery request clientOrderId client.symbol)

def cancelChecks (exchangeOrderId : UInt64) : List (Bool × BinanceApiError) :=
  (exchangeOrderId = 0,
      makeError .invalidRequest (ascii "Invalid exchange order ID")) ::
    signingChecks hmac client timestamp
      (ascii "symbol=" ++ Utilities.urlEncode client.symbol ++ ascii "&orderId=" ++
        DecimalNumerals.decimalBytes exchangeOrderId.toNat)

theorem asyncSignedRequest_contract {Result : Type} (method : Verb) (endpoint query : Bytes)
    (read : HttpResponse → Except BinanceApiError Result) :
    CallContract
      (unlessEmpty fun handler =>
        asyncSignedRequest hmac client timestamp method endpoint query
          (readingHandler read handler))
      (refusal (signingChecks hmac client timestamp query)) := by
  refine CallContract.guarded (CallContract.guarded (callContract_asyncRequest ?_) _ _) _ _
  intro response
  cases response <;> rfl

theorem sendOrder_contract (request : OrderRequest) (clientOrderId : UInt64) :
    CallContract (sendOrder hmac simdjson client timestamp request clientOrderId)
      (refusal (orderChecks hmac client timestamp request clientOrderId)) := by
  have signing := asyncSignedRequest_contract hmac client timestamp .post orderEndpoint
    (createOrderQuery request clientOrderId client.symbol)
    (parseOrderResponse simdjson · clientOrderId)
  have guarded := (signing.guarded (client.symbol = [])
    (makeError .invalidRequest (ascii "Instrument symbol is empty"))).guarded
      (¬ ValidOrder request clientOrderId)
      (makeError .invalidRequest (ascii "Invalid order parameters"))
  refine guarded.of_body rfl ?_
  intro handler
  simp only [sendOrder, not_validOrder_iff]

theorem cancelOrder_contract (exchangeOrderId : UInt64) :
    CallContract (cancelOrder hmac simdjson client timestamp exchangeOrderId)
      (refusal (cancelChecks hmac client timestamp exchangeOrderId)) := by
  have signing := asyncSignedRequest_contract hmac client timestamp .delete orderEndpoint
    (ascii "symbol=" ++ Utilities.urlEncode client.symbol ++ ascii "&orderId=" ++
      DecimalNumerals.decimalBytes exchangeOrderId.toNat) (parseCancelResponse simdjson)
  have guarded := signing.guarded (exchangeOrderId = 0)
    (makeError .invalidRequest (ascii "Invalid exchange order ID"))
  exact guarded.of_body rfl fun _ => rfl

theorem getBalances_contract :
    CallContract (getBalances hmac simdjson client timestamp)
      (refusal (signingChecks hmac client timestamp [])) := by
  have signing := asyncSignedRequest_contract hmac client timestamp .get accountEndpoint []
    (parseBalancesResponse simdjson)
  exact signing.of_body rfl fun _ => rfl

end Calls

end BinanceSpotClient

namespace BinanceOrderGateway

/-- The parameters the gateway accepts; it leaves the side and the type of an
order unchecked. -/
def ValidOrder (request : OrderRequest) (clientOrderId : UInt64) : Prop :=
  clientOrderId ≠ 0 ∧ 0 < request.quantity.raw ∧
    (request.type = .limit → 0 < request.price.raw)

instance (request : OrderRequest) (clientOrderId : UInt64) :
    Decidable (ValidOrder request clientOrderId) :=
  inferInstanceAs (Decidable (_ ∧ _))

theorem not_validOrder_iff (request : OrderRequest) (clientOrderId : UInt64) :
    ¬ ValidOrder request clientOrderId ↔
      clientOrderId = 0 ∨ request.quantity.raw ≤ 0 ∨
        (request.type = .limit ∧ request.price.raw ≤ 0) := by
  unfold ValidOrder
  simp only [not_and_or, not_not, Int64.not_lt, Classical.not_imp, ne_eq]

section Calls

variable (hmac : Bytes → Int32 → Bytes → Option Bytes)
variable (simdjson : Simdjson.Library)
variable (errorMessage : Simdjson.Error → Bytes)
variable (gateway : Gateway) (timestamp : UInt64)

def orderChecks (request : OrderRequest) (clientOrderId : UInt64) :
    List (Bool × OrderSubmissionError) :=
  [(¬ ValidOrder request clientOrderId,
      makeError .invalidOrder (ascii "Invalid order parameters")),
    (gateway.credentials.apiKey = [] ∨ gateway.credentials.secretKey = [],
      makeError .signingFailed (ascii "Binance API credentials are empty")),
    (gateway.symbol = [], makeError .invalidInstrument (ascii "Unknown instrument")),
    (createSignature hmac (createQuery timestamp request clientOrderId gateway.symbol)
        gateway.credentials.secretKey = [],
      makeError .signingFailed (ascii "Failed to create HMAC SHA256 signature"))]

theorem sendOrder_contract (request : OrderRequest) (clientOrderId : UInt64) :
    CallContract
      (sendOrder hmac simdjson errorMessage gateway timestamp request clientOrderId)
      (refusal (orderChecks hmac gateway timestamp request clientOrderId)) := by
  let query := createQuery timestamp request clientOrderId gateway.symbol
  let signature := createSignature hmac query gateway.credentials.secretKey
  have handedOver : CallContract
      (unlessEmpty fun handler => asyncRequest (httpRequest gateway query signature)
        (onResponse simdjson errorMessage clientOrderId handler))
      (refusal ([] : List (Bool × OrderSubmissionError))) := by
    apply callContract_asyncRequest
    intro response
    cases response <;> rfl
  have signed := handedOver.guarded (signature = [])
    (makeError .signingFailed (ascii "Failed to create HMAC SHA256 signature"))
  have named := signed.guarded (gateway.symbol = [])
    (makeError .invalidInstrument (ascii "Unknown instrument"))
  have authenticated := named.guarded
    (gateway.credentials.apiKey = [] ∨ gateway.credentials.secretKey = [])
    (makeError .signingFailed (ascii "Binance API credentials are empty"))
  have guarded := authenticated.guarded (¬ ValidOrder request clientOrderId)
    (makeError .invalidOrder (ascii "Invalid order parameters"))
  refine guarded.of_body rfl ?_
  intro handler
  simp only [sendOrder, not_validOrder_iff]
  rfl

end Calls

end BinanceOrderGateway

/-- Every order, cancellation and balance query of the spot client and every
order of the gateway meets its contract, for all arguments, credentials,
signatures, responses and orders of completion. -/
theorem calls_answered_once (hmac : Bytes → Int32 → Bytes → Option Bytes)
    (simdjson : Simdjson.Library) (errorMessage : Simdjson.Error → Bytes)
    (timestamp : UInt64) :
    (∀ client request clientOrderId,
      CallContract
        (BinanceSpotClient.sendOrder hmac simdjson client timestamp request clientOrderId)
        (refusal (BinanceSpotClient.orderChecks hmac client timestamp request
          clientOrderId))) ∧
    (∀ client exchangeOrderId,
      CallContract (BinanceSpotClient.cancelOrder hmac simdjson client timestamp exchangeOrderId)
        (refusal (BinanceSpotClient.cancelChecks hmac client timestamp exchangeOrderId))) ∧
    (∀ client,
      CallContract (BinanceSpotClient.getBalances hmac simdjson client timestamp)
        (refusal (BinanceSpotClient.signingChecks hmac client timestamp []))) ∧
    (∀ gateway request clientOrderId,
      CallContract
        (BinanceOrderGateway.sendOrder hmac simdjson errorMessage gateway timestamp request
          clientOrderId)
        (refusal (BinanceOrderGateway.orderChecks hmac gateway timestamp request
          clientOrderId))) := by
  refine ⟨?_, ?_, ?_, ?_⟩
  · intro client
    exact BinanceSpotClient.sendOrder_contract hmac simdjson client timestamp
  · intro client
    exact BinanceSpotClient.cancelOrder_contract hmac simdjson client timestamp
  · intro client
    exact BinanceSpotClient.getBalances_contract hmac simdjson client timestamp
  · intro gateway
    exact BinanceOrderGateway.sendOrder_contract hmac simdjson errorMessage gateway timestamp

/-- A balance query hands over its request and is answered by the response that
its session reads. -/
theorem calls_answered_once_balances :
    let hmac : Bytes → Int32 → Bytes → Option Bytes := fun _ _ _ => some [0x2A]
    let account : Json := .object [(ascii "balances", .array [.object
      [(ascii "asset", .string (ascii "BTC")), (ascii "free", .string (ascii "1.5")),
        (ascii "locked", .string (ascii "0"))]])]
    let client : BinanceSpotClient.Client := { credentials := ⟨ascii "key", ascii "secret"⟩ }
    let effects := BinanceSpotClient.getBalances hmac (.documented fun _ => .ok account) client
      1700000000000 record
    ∃ session answer, RunOf (fun _ => false) effects [session] ∧ session.outstanding = [] ∧
      effects.outputs = [] ∧ answers effects [session] = [answer] ∧
        answer = .ok [{ asset := ascii "BTC", free := ascii "1.5", locked := ascii "0" }] := by
  intro hmac account client effects
  let completions : List Completion :=
    [.execute .accepted, .resolve none, .connect none, .handshake none, .write none,
      .read (.ok { status := 200, headers := [], body := [] }), .deadline none]
  have completes : effects.requests.map (fun handed =>
      (runFrom (step fun _ => false) (run handed.1 true) completions).map fun session =>
        (session.outstanding, session.invocations.flatMap handed.2)) =
      [some ([], [.ok [{ asset := ascii "BTC", free := ascii "1.5", locked := ascii "0" }]])] := by
    decide +kernel
  obtain ⟨handed, requestsEq, ended⟩ := List.map_eq_singleton_iff.mp completes
  obtain ⟨session, reached, ended⟩ := Option.map_eq_some_iff.mp ended
  obtain ⟨quiet, answered⟩ := Prod.mk.inj ended
  have runOf : RunOf (fun _ => false) effects [session] := by
    rw [RunOf, requestsEq]
    exact .cons ⟨completions, reached⟩ .nil
  have once := ((calls_answered_once hmac (.documented fun _ => .ok account) (fun _ => [])
    1700000000000).2.2.1 client).answers_once (fun _ => false) [session] runOf
  obtain ⟨answer, answersEq⟩ := List.length_eq_one_iff.mp
    (once.2 fun only member => by rw [List.mem_singleton.mp member, quiet])
  refine ⟨session, answer, runOf, quiet, rfl, answersEq, ?_⟩
  have given : answers effects [session] = effects.outputs ++
      (session.invocations.flatMap handed.2 ++ []) := by
    rw [answers, requestsEq]
    rfl
  have silent : effects.outputs = [] := rfl
  rw [given, answered, silent, List.nil_append, List.append_nil, List.singleton_inj] at answersEq
  exact answersEq.symm

end ExchangeConnectivity
