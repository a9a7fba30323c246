import ExchangeConnectivity.RedirectChains
import ExchangeConnectivity.RestClientAsync

/-!
# The course of an answered request

As long as every operation of a call succeeds and every message is answered,
the messages sent for the call and its result are those of the chain of
redirects that the call's request starts, whatever connections carry them and
whatever other calls are under way.
-/

namespace ExchangeConnectivity

open ActionRuns ByteStrings HttpExchange RedirectChains

/-- The request a response redirects to, or the refusal of another host. -/
def nextRequest (config : ClientConfig) (request : Request) (out : HttpResponse) :
    Option (Except Bytes Request) :=
  let location := out.header (ascii "Location")
  if config.followRedirects ∧ isRedirectStatus out.status ∧ location ≠ [] then
    some ((extractRedirectPath location config.host).map fun target =>
      { method := if out.status = 303 then .get else request.method
        target
        body := if out.status = 303 then [] else request.body
        headers := request.headers })
  else none

/-- The chain a request starts after some redirects, when each message is
answered as `answer` says. -/
def chain (config : ClientConfig) (answer : Nat → Request → WireResponse) (hop : Nat)
    (request : Request) : List Request × Except Bytes HttpResponse :=
  follow (fun hop request => .ok (toHttpResponse request.method (answer hop request)))
    (nextRequest config) (config.maxRedirects - hop) hop request

section Chains

variable {config : ClientConfig} {answer : Nat → Request → WireResponse} {hop : Nat}
  {request : Request}

theorem chain_of_exhausted (exhausted : config.maxRedirects ≤ hop) :
    chain config answer hop request =
      ([request], .ok (toHttpResponse request.method (answer hop request))) := by
  rw [chain, Nat.sub_eq_zero_of_le exhausted, follow_zero]

theorem chain_of_final
    (final : nextRequest config request (toHttpResponse request.method (answer hop request)) =
      none) :
    chain config answer hop request =
      ([request], .ok (toHttpResponse request.method (answer hop request))) := by
  rw [chain]
  exact follow_of_final _ rfl final

theorem remaining_eq_succ (within : hop < config.maxRedirects) :
    config.maxRedirects - hop = config.maxRedirects - (hop + 1) + 1 := by
  omega

theorem chain_of_refused (within : hop < config.maxRedirects) {what : Bytes}
    (refused : nextRequest config request (toHttpResponse request.method (answer hop request)) =
      some (.error what)) :
    chain config answer hop request = ([request], .error what) := by
  rw [chain, remaining_eq_succ within]
  exact follow_of_refused _ rfl refused

theorem chain_of_redirect (within : hop < config.maxRedirects) {next : Request}
    (redirected : nextRequest config request
      (toHttpResponse request.method (answer hop request)) = some (.ok next)) :
    chain config answer hop request =
      (request :: (chain config answer (hop + 1) next).1,
        (chain config answer (hop + 1) next).2) := by
  rw [chain, remaining_eq_succ within]
  exact follow_of_redirect _ rfl redirected

end Chains

namespace RestClientAsync

section Responses

variable {beast : Beast} {config : Config} (client : Client) (st : RequestState)
  (response : WireResponse)
  (readBuffer : Bytes)

/-- The client once the connection of a response has been released. -/
def afterResponse (config : Config) (client : Client) (st : RequestState)
    (response : WireResponse) (readBuffer : Bytes) : Client :=
  releaseConnection config (fillBuffer client st.conn readBuffer) st.conn response.keepAlive

/-- A response that is not followed goes to the handler. -/
theorem onResponse_final
    (final : st.redirectCount < config.maxRedirects →
      nextRequest config.toClientConfig st.request
        (toHttpResponse st.request.method response) = none) :
    onResponse beast config client st (.ok (response, readBuffer)) =
      (afterResponse config client st response readBuffer).invoke { st with conn := none }
        (.ok (toHttpResponse st.request.method response)) := by
  rw [onResponse]
  dsimp only
  rw [if_neg]
  · rfl
  · rintro ⟨follows, isRedirect, within, located⟩
    have redirected := final within
    rw [nextRequest, if_pos ⟨follows, isRedirect, located⟩] at redirected
    cases redirected

theorem onResponse_refused (within : st.redirectCount < config.maxRedirects) {what : Bytes}
    (refused : nextRequest config.toClientConfig st.request
      (toHttpResponse st.request.method response) = some (.error what)) :
    onResponse beast config client st (.ok (response, readBuffer)) =
      (afterResponse config client st response readBuffer).invoke { st with conn := none }
        (.error .crossHostRedirect) := by
  rw [nextRequest, Option.ite_none_right_eq_some, Option.some_inj] at refused
  obtain ⟨⟨follows, isRedirect, located⟩, refused⟩ := refused
  rw [onResponse]
  dsimp only
  rw [if_pos ⟨follows, isRedirect, within, located⟩, resolveRedirect]
  cases path : extractRedirectPath
      ((toHttpResponse st.request.method response).header (ascii "Location"))
      config.host with
  | error _ => rfl
  | ok _ => rw [path] at refused; cases refused

theorem onResponse_redirect (within : st.redirectCount < config.maxRedirects) {next : Request}
    (redirected : nextRequest config.toClientConfig st.request
      (toHttpResponse st.request.method response) = some (.ok next)) :
    onResponse beast config client st (.ok (response, readBuffer)) =
      startRequest beast config (afterResponse config client st response readBuffer) next
        (st.redirectCount + 1) st.handler := by
  rw [nextRequest, Option.ite_none_right_eq_some, Option.some_inj] at redirected
  obtain ⟨⟨follows, isRedirect, located⟩, redirected⟩ := redirected
  rw [onResponse]
  dsimp only
  rw [if_pos ⟨follows, isRedirect, within, located⟩, resolveRedirect]
  cases path : extractRedirectPath
      ((toHttpResponse st.request.method response).header (ascii "Location"))
      config.host with
  | error _ => rw [path] at redirected; cases redirected
  | ok target =>
      rw [path] at redirected
      rw [← Except.ok.inj redirected]
      rfl

end Responses

/-- What the client has done for one call. -/
structure View where
  pendings : List Pending := []
  results : List RestResult := []
  sent : List Request := []

def Client.view (client : Client) (call : Nat) : View where
  pendings := client.outstanding.filter fun pending => pending.st.handler = call
  results := (client.invocations.filter fun entry => entry.1 = call).map Prod.snd
  sent := (client.sent.filter fun entry => entry.1 = call).map Prod.snd

/-- The message an operation is about has been sent already. -/
def Operation.sentOf : Operation → Request → List Request
  | .resolve, _ | .connect, _ | .tlsHandshake, _ => []
  | .write, request | .read, request => [request]

section Views

variable {beast : Beast} (config : Config) (client : Client) (st : RequestState)

theorem start_view (operation : Operation) :
    (client.start operation st).view st.handler =
      { client.view st.handler with
        pendings := (client.view st.handler).pendings ++ [{ operation, st }] } := by
  simp [Client.view, Client.start]

theorem start_view_other {call : Nat} (other : st.handler ≠ call) (operation : Operation) :
    (client.start operation st).view call = client.view call := by
  simp [Client.view, Client.start, other]

theorem invoke_view (result : RestResult) :
    (client.invoke st result).view st.handler =
      { client.view st.handler with
        results := (client.view st.handler).results ++ [result] } := by
  simp [Client.view, Client.invoke]

theorem invoke_view_other {call : Nat} (other : st.handler ≠ call) (result : RestResult) :
    (client.invoke st result).view call = client.view call := by
  simp [Client.view, Client.invoke, other]

@[simp]
theorem releaseConnection_view (conn : Option Nat) (reusable : Bool) (call : Nat) :
    (releaseConnection config client conn reusable).view call = client.view call := by
  cases conn with
  | none => rfl
  | some index =>
      rw [releaseConnection]
      split <;> rfl

@[simp]
theorem fillBuffer_view (conn : Option Nat) (readBuffer : Bytes) (call : Nat) :
    (fillBuffer client conn readBuffer).view call = client.view call := by
  cases conn <;> rfl

@[simp]
theorem afterResponse_view (response : WireResponse) (readBuffer : Bytes) (call : Nat) :
    (afterResponse config client st response readBuffer).view call = client.view call := by
  rw [afterResponse, releaseConnection_view, fillBuffer_view]

theorem sendAndReceive_view :
    (sendAndReceive client st).view st.handler =
      { client.view st.handler with
        pendings := (client.view st.handler).pendings ++ [{ operation := .write, st }]
        sent := (client.view st.handler).sent ++ [st.request] } := by
  rw [sendAndReceive, start_view]
  simp [Client.view]

theorem sendAndReceive_view_other {call : Nat} (other : st.handler ≠ call) :
    (sendAndReceive client st).view call = client.view call := by
  rw [sendAndReceive, start_view_other _ _ other]
  simp [Client.view, other]

/-- A request starts with a resolve or, on an idle connection, with its write. -/
theorem startRequest_view (request : Request) (redirectCount handler : Nat) :
    ∃ operation conn,
      (startRequest beast config client request redirectCount handler).view handler =
        { client.view handler with
          pendings := (client.view handler).pendings ++
            [{ operation
               st := { newState beast config request redirectCount handler with conn } }]
          sent := (client.view handler).sent ++ operation.sentOf request } := by
  rw [startRequest]
  split
  next index rest pool =>
    refine ⟨.write, some index, ?_⟩
    exact sendAndReceive_view { client with idlePool := rest }
      { newState beast config request redirectCount handler with conn := some index }
  next pool =>
    refine ⟨.resolve, none, ?_⟩
    refine (start_view client (newState beast config request redirectCount handler)
      .resolve).trans ?_
    simp [Operation.sentOf, newState]

theorem startRequest_view_other {handler call : Nat} (other : handler ≠ call)
    (request : Request) (redirectCount : Nat) :
    (startRequest beast config client request redirectCount handler).view call =
      client.view call := by
  rw [startRequest]
  split
  next index rest pool => exact sendAndReceive_view_other { client with idlePool := rest } _ other
  next pool => exact start_view_other client _ other .resolve

theorem useStream_view_other {call : Nat} (other : st.handler ≠ call) :
    (useStream config client st).view call = client.view call := by
  rw [useStream]
  exact sendAndReceive_view_other _ _ other

/-- A callback leaves the other calls alone. -/
theorem callback_view_other {call : Nat} (other : st.handler ≠ call) (completion : Completion) :
    (callback beast config client st completion).view call = client.view call := by
  have abandoned : ∀ result : RestResult,
      (Client.invoke (releaseConnection config client st.conn false) { st with conn := none }
        result).view call = client.view call := by
    intro result
    rw [invoke_view_other _ _ (by exact other), releaseConnection_view]
  cases completion with
  | resolve failed serverNameSet hostSet =>
      rw [callback, onResolve, doConnect]
      split_ifs <;>
        simp only [invoke_view_other client st other, start_view_other client st other]
  | connect failed =>
      rw [callback, onConnect]
      split_ifs <;>
        simp only [invoke_view_other client st other, start_view_other client st other,
          useStream_view_other config client st other]
  | tlsHandshake failed =>
      rw [callback, onTlsHandshake]
      split_ifs <;>
        simp only [invoke_view_other client st other, useStream_view_other config client st other]
  | write failed =>
      rw [callback, onWrite]
      split_ifs
      · exact abandoned _
      · exact start_view_other client st other .read
  | read result =>
      cases result with
      | error error => exact abandoned _
      | ok received =>
          obtain ⟨response, readBuffer⟩ := received
          have answered : ∀ result : RestResult,
              ((afterResponse config client st response readBuffer).invoke
                { st with conn := none } result).view call = client.view call := by
            intro result
            rw [invoke_view_other _ _ (by exact other), afterResponse_view]
          rw [callback, onResponse]
          dsimp only
          split
          · split
            · exact answered _
            · rw [startRequest_view_other _ _ other]
              exact afterResponse_view config client st response readBuffer call
          · exact answered _

end Views

/-- The operation succeeds, and what is read is the answer to the request. -/
def Answers (answer : Nat → Request → WireResponse) (st : RequestState) : Completion → Prop
  | .resolve failed serverNameSet hostSet =>
      failed = false ∧ serverNameSet = true ∧ hostSet = true
  | .connect failed | .tlsHandshake failed | .write failed => failed = false
  | .read result =>
      ∃ readBuffer, result = .ok (answer st.redirectCount st.request, readBuffer)

/-- The result handed out for the end of a chain. -/
def toResult (ending : Except Bytes HttpResponse) : RestResult :=
  ending.mapError fun _ => .crossHostRedirect

/-- The call is at some message of the chain its request starts, or has been
given the result of the chain. -/
inductive OnCourse (config : Config) (answer : Nat → Request → WireResponse) (request : Request)
    (view : View) : Prop
  | carried (before : List Request) (operation : Operation) (st : RequestState)
      (pendingsEq : view.pendings = [{ operation, st }]) (resultsEq : view.results = [])
      (sentEq : view.sent = before ++ operation.sentOf st.request)
      (chainEq : chain config.toClientConfig answer 0 request =
        (before ++ (chain config.toClientConfig answer st.redirectCount st.request).1,
          (chain config.toClientConfig answer st.redirectCount st.request).2))
  | answered (pendingsEq : view.pendings = [])
      (resultsEq : view.results = [toResult (chain config.toClientConfig answer 0 request).2])
      (sentEq : view.sent = (chain config.toClientConfig answer 0 request).1)

section Course

variable {beast : Beast} {config : Config} {answer : Nat → Request → WireResponse}
  {request : Request}
  {client : Client} {st : RequestState} {before : List Request}

/-- A callback that starts an operation of the same message stays on course. -/
theorem onCourse_start (operation : Operation)
    (viewEq : client.view st.handler =
      { pendings := [], results := [], sent := before ++ operation.sentOf st.request })
    (chainEq : chain config.toClientConfig answer 0 request =
      (before ++ (chain config.toClientConfig answer st.redirectCount st.request).1,
        (chain config.toClientConfig answer st.redirectCount st.request).2)) :
    OnCourse config answer request ((client.start operation st).view st.handler) := by
  refine .carried before operation st ?_ ?_ ?_ chainEq
  · rw [start_view, viewEq]
    rfl
  · rw [start_view, viewEq]
  · rw [start_view, viewEq]

theorem onCourse_useStream
    (viewEq : client.view st.handler = { pendings := [], results := [], sent := before })
    (chainEq : chain config.toClientConfig answer 0 request =
      (before ++ (chain config.toClientConfig answer st.redirectCount st.request).1,
        (chain config.toClientConfig answer st.redirectCount st.request).2)) :
    OnCourse config answer request ((useStream config client st).view st.handler) := by
  have sentView := sendAndReceive_view
    { client with connections := client.connections ++ [{ isTls := config.https }] }
    { st with conn := some client.connections.length }
  refine .carried before .write { st with conn := some client.connections.length } ?_ ?_ ?_
    chainEq
  · rw [useStream]
    refine (congrArg View.pendings sentView).trans ?_
    exact congrArg (· ++ [_]) (congrArg View.pendings viewEq)
  · rw [useStream]
    exact (congrArg View.results sentView).trans (congrArg View.results viewEq)
  · rw [useStream]
    refine (congrArg View.sent sentView).trans ?_
    exact congrArg (· ++ [st.request]) (congrArg View.sent viewEq)

theorem onCourse_startRequest {call redirectCount : Nat} {next : Request}
    (viewEq : client.view call = { pendings := [], results := [], sent := before })
    (chainEq : chain config.toClientConfig answer 0 request =
      (before ++ (chain config.toClientConfig answer redirectCount next).1,
        (chain config.toClientConfig answer redirectCount next).2)) :
    OnCourse config answer request
      ((startRequest beast config client next redirectCount call).view call) := by
  obtain ⟨operation, conn, startedView⟩ :=
    startRequest_view config client next redirectCount call
  rw [startedView, viewEq]
  exact .carried before operation { newState beast config next redirectCount call with conn } rfl
    rfl rfl chainEq

theorem onCourse_invoke (st : RequestState) {call : Nat} {ending : Except Bytes HttpResponse}
    (isCall : st.handler = call)
    (viewEq : client.view call =
      { pendings := [], results := [], sent := before ++ [st.request] })
    (chainEq : chain config.toClientConfig answer 0 request =
      (before ++ [st.request], ending)) :
    OnCourse config answer request ((client.invoke st (toResult ending)).view call) := by
  subst isCall
  refine .answered ?_ ?_ ?_
  · rw [invoke_view, viewEq]
  · rw [invoke_view, viewEq, chainEq]
    rfl
  · rw [invoke_view, viewEq, chainEq]

/-- The end of an operation that succeeds starts the next one, or ends the
chain. -/
theorem onCourse_callback {completion : Completion} (answers : Answers answer st completion)
    (viewEq : client.view st.handler =
      { pendings := [], results := [], sent := before ++ completion.operation.sentOf st.request })
    (chainEq : chain config.toClientConfig answer 0 request =
      (before ++ (chain config.toClientConfig answer st.redirectCount st.request).1,
        (chain config.toClientConfig answer st.redirectCount st.request).2)) :
    OnCourse config answer request
      ((callback beast config client st completion).view st.handler) := by
  cases completion with
  | resolve failed serverNameSet hostSet =>
      obtain ⟨rfl, rfl, rfl⟩ := answers
      have started := onCourse_start .connect viewEq chainEq
      simpa [callback, onResolve, doConnect] using started
  | connect failed =>
      obtain rfl : failed = false := answers
      rw [callback, onConnect, if_neg (by simp)]
      split
      · exact onCourse_start .tlsHandshake viewEq chainEq
      · exact onCourse_useStream (viewEq.trans (by simp [Completion.operation, Operation.sentOf]))
          chainEq
  | tlsHandshake failed =>
      obtain rfl : failed = false := answers
      rw [callback, onTlsHandshake, if_neg (by simp)]
      exact onCourse_useStream (viewEq.trans (by simp [Completion.operation, Operation.sentOf]))
        chainEq
  | write failed =>
      obtain rfl : failed = false := answers
      rw [callback, onWrite, if_neg (by simp)]
      exact onCourse_start .read viewEq chainEq
  | read result =>
      obtain ⟨readBuffer, rfl⟩ := answers
      have releasedView := (afterResponse_view config client st
        (answer st.redirectCount st.request) readBuffer st.handler).trans viewEq
      rw [callback]
      by_cases within : st.redirectCount < config.maxRedirects
      · cases redirected : nextRequest config.toClientConfig st.request
            (toHttpResponse st.request.method (answer st.redirectCount st.request)) with
        | none =>
            rw [onResponse_final _ _ _ _ fun _ => redirected]
            rw [chain_of_final redirected] at chainEq
            exact onCourse_invoke { st with conn := none } rfl releasedView chainEq
        | some target =>
            cases target with
            | error what =>
                rw [onResponse_refused _ _ _ _ within redirected]
                rw [chain_of_refused within redirected] at chainEq
                exact onCourse_invoke { st with conn := none } rfl releasedView chainEq
            | ok next =>
                rw [onResponse_redirect _ _ _ _ within redirected]
                rw [chain_of_redirect within redirected, List.append_cons] at chainEq
                exact onCourse_startRequest releasedView chainEq
      · rw [onResponse_final _ _ _ _ fun less => absurd less within]
        rw [chain_of_exhausted (Nat.le_of_not_lt within)] at chainEq
        exact onCourse_invoke { st with conn := none } rfl releasedView chainEq

end Course

/-- What the view of a call shows once an operation of the call has been
finished. -/
theorem finish_view {client : Client} {operation : Operation} {st : RequestState}
    (pendingsEq : (client.view st.handler).pendings = [{ operation, st }]) :
    (Client.view { client with outstanding := client.outstanding.erase { operation, st } }
        st.handler) =
      { client.view st.handler with pendings := [] } := by
  have erased : (client.outstanding.erase { operation, st }).filter
      (fun pending => pending.st.handler = st.handler) = [] := by
    have carried : client.outstanding.filter (fun pending => pending.st.handler = st.handler) =
        [{ operation, st }] := pendingsEq
    rw [← List.erase_filter, carried, List.erase_cons_head]
  simp only [Client.view, erased]

theorem finish_view_other {client : Client} {operation : Operation} {st : RequestState}
    {call : Nat} (other : st.handler ≠ call) :
    (Client.view { client with outstanding := client.outstanding.erase { operation, st } }
        call) = client.view call := by
  have kept : (client.outstanding.erase { operation, st }).filter
      (fun pending => pending.st.handler = call) =
        client.outstanding.filter fun pending => pending.st.handler = call := by
    rw [← List.erase_filter, List.erase_of_not_mem]
    simp [other]
  simp only [Client.view, kept]

theorem step_view_other {beast : Beast} {config : Config} {client next : Client} {st : RequestState}
    {completion : Completion} {call : Nat} (other : st.handler ≠ call)
    (stepped : step beast config client (.completion st completion) = some next) :
    next.view call = client.view call := by
  obtain ⟨_, rfl⟩ := step_completion_eq_some_iff.mp stepped
  rw [callback_view_other config _ st other, finish_view_other other]

/-- A successful completion of the call keeps it on course. -/
theorem OnCourse.completion {beast : Beast} {config : Config}
    {answer : Nat → Request → WireResponse}
    {request : Request} {client next : Client} {st : RequestState} {completion : Completion}
    (onCourse : OnCourse config answer request (client.view st.handler))
    (answers : Answers answer st completion)
    (stepped : step beast config client (.completion st completion) = some next) :
    OnCourse config answer request (next.view st.handler) := by
  obtain ⟨outstanding, rfl⟩ := step_completion_eq_some_iff.mp stepped
  have carried : { operation := completion.operation, st } ∈
      (client.view st.handler).pendings := by
    simpa [Client.view] using outstanding
  cases onCourse with
  | carried before operation state pendingsEq resultsEq sentEq chainEq =>
      obtain ⟨rfl, rfl⟩ : completion.operation = operation ∧ st = state := by
        simpa [pendingsEq] using carried
      refine onCourse_callback answers ((finish_view pendingsEq).trans ?_) chainEq
      simp only [resultsEq, sentEq]
  | answered pendingsEq => simp [pendingsEq] at carried

section Calls

variable {beast : Beast} (config : Config) (client : Client)

@[simp]
theorem releaseConnection_calls (conn : Option Nat) (reusable : Bool) :
    (releaseConnection config client conn reusable).calls = client.calls := by
  cases conn with
  | none => rfl
  | some index =>
      rw [releaseConnection]
      split <;> rfl

@[simp]
theorem fillBuffer_calls (conn : Option Nat) (readBuffer : Bytes) :
    (fillBuffer client conn readBuffer).calls = client.calls := by
  cases conn <;> rfl

@[simp]
theorem startRequest_calls (request : Request) (redirectCount handler : Nat) :
    (startRequest beast config client request redirectCount handler).calls = client.calls := by
  rw [startRequest]
  split <;> rfl

@[simp]
theorem onResponse_calls (st : RequestState)
    (result : Except ReadError (WireResponse × Bytes)) :
    (onResponse beast config client st result).calls = client.calls := by
  cases result with
  | error error => simp [onResponse, Client.invoke]
  | ok received =>
      rw [onResponse]
      dsimp only
      split
      · split <;> simp [Client.invoke]
      · simp [Client.invoke]

theorem callback_calls (st : RequestState) (completion : Completion) :
    (callback beast config client st completion).calls = client.calls := by
  cases completion with
  | resolve failed serverNameSet hostSet =>
      rw [callback, onResolve, doConnect]
      split_ifs <;> rfl
  | connect failed =>
      rw [callback, onConnect]
      split_ifs <;> rfl
  | tlsHandshake failed =>
      rw [callback, onTlsHandshake]
      split_ifs <;> rfl
  | write failed =>
      rw [callback, onWrite]
      split_ifs
      · exact releaseConnection_calls config client st.conn false
      · rfl
  | read result => exact onResponse_calls config client st result

end Calls

/-- Calls not made yet leave no trace. -/
def Client.Fresh (client : Client) : Prop :=
  ∀ call, client.calls.length ≤ call → client.view call = {}

theorem Client.Fresh.handler_lt {client : Client} (fresh : client.Fresh)
    {operation : Operation} {st : RequestState}
    (outstanding : { operation, st } ∈ client.outstanding) :
    st.handler < client.calls.length := by
  by_contra later
  have empty := congrArg View.pendings (fresh st.handler (Nat.le_of_not_lt later))
  have carried : { operation, st } ∈ (client.view st.handler).pendings := by
    simpa [Client.view] using outstanding
  rw [empty] at carried
  cases carried

theorem Client.Fresh.step {beast : Beast} {config : Config} {client next : Client} {event : Event}
    (fresh : client.Fresh) (stepped : step beast config client event = some next) : next.Fresh := by
  cases event with
  | call request =>
      obtain ⟨_, rfl⟩ := step_call_eq_some_iff.mp stepped
      intro call later
      rw [onCall, startRequest_calls, List.length_append, List.length_singleton] at later
      rw [onCall, startRequest_view_other _ _ (Nat.ne_of_lt later)]
      exact fresh call (Nat.le_of_succ_le later)
  | completion st completion =>
      obtain ⟨outstanding, rfl⟩ := step_completion_eq_some_iff.mp stepped
      intro call later
      rw [callback_calls] at later
      have other : st.handler ≠ call :=
        Nat.ne_of_lt (Nat.lt_of_lt_of_le (fresh.handler_lt outstanding) later)
      rw [callback_view_other _ _ _ other, finish_view_other other]
      exact fresh call later

/-- A call of the client was made before, and is left alone, or is the new one. -/
theorem onCall_cases {beast : Beast} {config : Config} {client : Client} {made request : Request}
    {call : Nat}
    (isCall : (onCall beast config client made).calls[call]? = some request) :
    (client.calls[call]? = some request ∧
        (onCall beast config client made).view call = client.view call) ∨
      (call = client.calls.length ∧ request = made) := by
  rw [onCall, startRequest_calls] at isCall
  dsimp only at isCall
  by_cases new : client.calls.length = call
  · subst new
    rw [List.getElem?_concat_length, Option.some_inj] at isCall
    exact .inr ⟨rfl, isCall.symm⟩
  · have earlier : call < client.calls.length := by
      have inside := (List.getElem?_eq_some_iff.mp isCall).1
      rw [List.length_append, List.length_singleton] at inside
      omega
    rw [List.getElem?_append_left earlier] at isCall
    exact .inl ⟨isCall, startRequest_view_other config _ new made 0⟩

/-- A call starts on course. -/
theorem Client.Fresh.onCourse_onCall {client : Client} (fresh : client.Fresh) (beast : Beast)
    (config : Config) (answer : Nat → Request → WireResponse) (request : Request) :
    OnCourse config answer request
      ((onCall beast config client request).view client.calls.length) := by
  have empty : Client.view { client with calls := client.calls ++ [request] }
      client.calls.length = {} := fresh client.calls.length (Nat.le_refl _)
  exact onCourse_startRequest empty rfl

end RestClientAsync

end ExchangeConnectivity
