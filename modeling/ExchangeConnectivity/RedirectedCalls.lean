import ExchangeConnectivity.AnsweredRequests

/-!
# The messages of a call

Whatever the server answers, whatever fails and whatever other calls are under
way: the messages sent for a call are the call's request and then, one by one,
what the response to the message before redirects to.  A response handed out is
the one to the last of them.
-/

namespace ExchangeConnectivity

open ActionRuns ByteStrings HttpExchange RedirectChains

/-- The request a response redirects the client to, as the redirect of a
chain. -/
def redirect (config : ClientConfig) (request : Request) (response : WireResponse) :
    Option (Except Bytes Request) :=
  nextRequest config request (toHttpResponse request.method response)

/-- A message keeps the headers of the request, and its method and body unless
it has become a plain GET. -/
def Keeps (request message : Request) : Prop :=
  message.headers = request.headers ∧
    (message.method = request.method ∧ message.body = request.body ∨
      message.method = .get ∧ message.body = [])

theorem keeps_redirect {config : ClientConfig} {first request next : Request}
    {response : WireResponse} (redirects : redirect config request response = some (.ok next))
    (keeps : Keeps first request) : Keeps first next := by
  rw [redirect, nextRequest, Option.ite_none_right_eq_some, Option.some_inj] at redirects
  obtain ⟨_, redirects⟩ := redirects
  cases path : extractRedirectPath
      ((toHttpResponse request.method response).header (ascii "Location")) config.host with
  | error what => rw [path] at redirects; cases redirects
  | ok target =>
      rw [path] at redirects
      obtain ⟨sameHeaders, sameMethod⟩ := keeps
      rw [← Except.ok.inj redirects]
      refine ⟨sameHeaders, ?_⟩
      dsimp only
      split
      · exact .inr ⟨rfl, rfl⟩
      · exact sameMethod

namespace RestClientAsync

/-- The response that a completion brings for a message. -/
def Completion.answers (completion : Completion) (request : Request) :
    List (Request × WireResponse) :=
  match completion with
  | .read (.ok (response, _)) => [(request, response)]
  | _ => []

/-- The response read in a step, with the call and the message it is for. -/
def answeredBy (taken : Client × Event) : List (Nat × Request × WireResponse) :=
  match taken.2 with
  | .call _ => []
  | .completion st completion =>
      (completion.answers st.request).map fun entry => (st.handler, entry)

/-- The messages of a call that have been answered, each with its response. -/
def answered (past : List (Client × Event)) (call : Nat) : List (Request × WireResponse) :=
  ((past.flatMap answeredBy).filter fun entry => entry.1 = call).map Prod.snd

theorem answered_call (past : List (Client × Event)) (client : Client) (request : Request)
    (call : Nat) : answered (past ++ [(client, .call request)]) call = answered past call := by
  simp [answered, answeredBy]

theorem answered_completion (past : List (Client × Event)) (client : Client) (st : RequestState)
    (completion : Completion) (call : Nat) :
    answered (past ++ [(client, .completion st completion)]) call =
      answered past call ++ if st.handler = call then completion.answers st.request else [] := by
  have added : answeredBy (client, .completion st completion) =
      (completion.answers st.request).map fun entry => (st.handler, entry) := rfl
  rw [answered, List.flatMap_append, List.filter_append, List.map_append,
    List.flatMap_singleton, added]
  split <;> rename_i same <;> simp [answered, List.filter_map, Function.comp_def, same]

/-- What the messages of a call have to do with the call and the responses. -/
structure FollowsRedirects (config : ClientConfig) (request : Request)
    (answered : List (Request × WireResponse)) (view : View) : Prop where
  first : ∀ message, view.sent[0]? = some message → message = request
  next : ∀ index message, view.sent[index + 1]? = some message →
    ∃ earlier response, answered[index]? = some (earlier, response) ∧
      redirect config earlier response = some (.ok message)
  kept : ∀ message ∈ view.sent, Keeps request message
  limited : view.sent.length ≤ config.maxRedirects + 1
  inOrder : answered.map Prod.fst <+: view.sent
  handedOut : ∀ out, .ok out ∈ view.results → ∃ message response,
    answered.getLast? = some (message, response) ∧ view.sent = answered.map Prod.fst ∧
      out = toHttpResponse message.method response

/-- How far a call has come: it carries a message that its answers have
redirected it to, or it has ended with that message's failure or response. -/
inductive Tracked (config : Config) (request : Request) (answered : List (Request × WireResponse))
    (view : View) : Prop
  | carried (operation : Operation) (st : RequestState)
      (pendingsEq : view.pendings = [{ operation, st }]) (resultsEq : view.results = [])
      (redirected : Redirected (redirect config.toClientConfig) request answered st.request)
      (countEq : st.redirectCount = answered.length)
      (limited : answered.length ≤ config.maxRedirects)
      (sentEq : view.sent = answered.map Prod.fst ++ operation.sentOf st.request)
  | failed (last : Request) (error : RestError) (transmitted : List Request)
      (pendingsEq : view.pendings = []) (resultsEq : view.results = [.error error])
      (redirected : Redirected (redirect config.toClientConfig) request answered last)
      (limited : answered.length ≤ config.maxRedirects)
      (sentEq : view.sent = answered.map Prod.fst ++ transmitted)
      (atMost : transmitted <+: [last])
  | ended (before : List (Request × WireResponse)) (last : Request) (response : WireResponse)
      (pendingsEq : view.pendings = [])
      (answeredEq : answered = before ++ [(last, response)])
      (redirected : Redirected (redirect config.toClientConfig) request before last)
      (limited : before.length ≤ config.maxRedirects)
      (sentEq : view.sent = answered.map Prod.fst)
      (resultsEq : view.results = [.error .crossHostRedirect] ∨
        view.results = [.ok (toHttpResponse last.method response)])

section Tracked

variable {config : Config} {request : Request} {answered : List (Request × WireResponse)}

/-- What is said of the messages and the answers follows from the chain of
redirects they belong to. -/
theorem followsRedirects_of_redirected {view : View} {last : Request}
    {before : List (Request × WireResponse)}
    (redirected : Redirected (redirect config.toClientConfig) request before last)
    (limited : before.length ≤ config.maxRedirects) (known : before <+: answered)
    (sent : view.sent <+: before.map Prod.fst ++ [last])
    (inOrder : answered.map Prod.fst <+: view.sent)
    (handedOut : ∀ out, .ok out ∈ view.results → ∃ message response,
      answered.getLast? = some (message, response) ∧ view.sent = answered.map Prod.fst ∧
        out = toHttpResponse message.method response) :
    FollowsRedirects config.toClientConfig request answered view := by
  have place : ∀ {index : Nat} {message : Request}, view.sent[index]? = some message →
      (before.map Prod.fst ++ [last])[index]? = some message := by
    intro index message found
    obtain ⟨later, splits⟩ := sent
    rw [← splits, List.getElem?_append_left (List.getElem?_eq_some_iff.mp found).1, found]
  refine ⟨fun message found => ?_, fun index message found => ?_, fun message member => ?_, ?_,
    inOrder, handedOut⟩
  · have head := place found
    rw [redirected.head] at head
    exact (Option.some.inj head).symm
  · obtain ⟨earlier, response, exchanged, redirects⟩ := redirected.linked (place found)
    refine ⟨earlier, response, ?_, redirects⟩
    obtain ⟨later, rfl⟩ := known
    rw [List.getElem?_append_left (List.getElem?_eq_some_iff.mp exchanged).1, exchanged]
  · exact redirected.all_of_kept (Keeps request)
      (fun _ _ _ redirects => keeps_redirect redirects) ⟨rfl, .inl ⟨rfl, rfl⟩⟩ message
        (sent.subset member)
  · have bound := sent.length_le
    rw [List.length_append, List.length_map, List.length_singleton] at bound
    exact Nat.le_trans bound (Nat.succ_le_succ limited)

theorem Tracked.followsRedirects {view : View} (tracked : Tracked config request answered view) :
    FollowsRedirects config.toClientConfig request answered view := by
  cases tracked with
  | carried operation st pendingsEq resultsEq redirected countEq limited sentEq =>
      refine followsRedirects_of_redirected redirected limited (List.prefix_refl _) ?_ ?_ ?_
      · rw [sentEq, List.prefix_append_right_inj]
        cases operation <;> simp [Operation.sentOf]
      · rw [sentEq]
        exact List.prefix_append _ _
      · simp [resultsEq]
  | failed last error transmitted pendingsEq resultsEq redirected limited sentEq atMost =>
      refine followsRedirects_of_redirected redirected limited (List.prefix_refl _) ?_ ?_ ?_
      · rw [sentEq, List.prefix_append_right_inj]
        exact atMost
      · rw [sentEq]
        exact List.prefix_append _ _
      · simp [resultsEq]
  | ended before last response pendingsEq answeredEq redirected limited sentEq resultsEq =>
      subst answeredEq
      refine followsRedirects_of_redirected redirected limited (List.prefix_append _ _) ?_ ?_ ?_
      · exact ⟨[], by rw [List.append_nil, sentEq, List.map_append, List.map_singleton]⟩
      · exact ⟨[], by rw [List.append_nil, sentEq]⟩
      · intro out given
        refine ⟨last, response, List.getLast?_concat, sentEq, ?_⟩
        rcases resultsEq with refused | delivered
        · simp [refused] at given
        · simpa [delivered] using given

end Tracked

section Callbacks

variable {beast : Beast} {config : Config} {request : Request}
  {answered : List (Request × WireResponse)}
  {client : Client} {st : RequestState}

/-- A message that fails ends its call. -/
theorem tracked_invoke (operation : Operation) (error : RestError)
    (viewEq : client.view st.handler =
      { sent := answered.map Prod.fst ++ operation.sentOf st.request })
    (redirected : Redirected (redirect config.toClientConfig) request answered st.request)
    (limited : answered.length ≤ config.maxRedirects) :
    Tracked config request answered ((client.invoke st (.error error)).view st.handler) := by
  rw [invoke_view, viewEq]
  refine .failed st.request error (operation.sentOf st.request) rfl rfl redirected limited rfl ?_
  cases operation <;> simp [Operation.sentOf]

theorem tracked_start (operation : Operation)
    (viewEq : client.view st.handler =
      { sent := answered.map Prod.fst ++ operation.sentOf st.request })
    (redirected : Redirected (redirect config.toClientConfig) request answered st.request)
    (countEq : st.redirectCount = answered.length)
    (limited : answered.length ≤ config.maxRedirects) :
    Tracked config request answered ((client.start operation st).view st.handler) := by
  rw [start_view, viewEq]
  exact .carried operation st rfl rfl redirected countEq limited rfl

theorem tracked_useStream
    (viewEq : client.view st.handler = { sent := answered.map Prod.fst })
    (redirected : Redirected (redirect config.toClientConfig) request answered st.request)
    (countEq : st.redirectCount = answered.length)
    (limited : answered.length ≤ config.maxRedirects) :
    Tracked config request answered ((useStream config client st).view st.handler) := by
  have sentView := sendAndReceive_view
    { client with connections := client.connections ++ [{ isTls := config.https }] }
    { st with conn := some client.connections.length }
  have sameView : Client.view
      { client with connections := client.connections ++ [{ isTls := config.https }] }
        st.handler = { sent := answered.map Prod.fst } := viewEq
  dsimp only at sentView
  rw [sameView] at sentView
  rw [useStream, sentView]
  exact .carried .write { st with conn := some client.connections.length } rfl rfl redirected
    countEq limited rfl

theorem tracked_startRequest {call redirectCount : Nat} {next : Request}
    (viewEq : client.view call = { sent := answered.map Prod.fst })
    (redirected : Redirected (redirect config.toClientConfig) request answered next)
    (countEq : redirectCount = answered.length)
    (limited : answered.length ≤ config.maxRedirects) :
    Tracked config request answered
      ((startRequest beast config client next redirectCount call).view call) := by
  obtain ⟨operation, conn, startedView⟩ :=
    startRequest_view config client next redirectCount call
  rw [startedView, viewEq]
  exact .carried operation { newState beast config next redirectCount call with conn } rfl rfl
    redirected countEq limited rfl

/-- A response ends its call or redirects it to the next message. -/
theorem tracked_onResponse (response : WireResponse) (readBuffer : Bytes)
    (viewEq : client.view st.handler = { sent := answered.map Prod.fst ++ [st.request] })
    (redirected : Redirected (redirect config.toClientConfig) request answered st.request)
    (countEq : st.redirectCount = answered.length)
    (limited : answered.length ≤ config.maxRedirects) :
    Tracked config request (answered ++ [(st.request, response)])
      ((onResponse beast config client st (.ok (response, readBuffer))).view st.handler) := by
  have releasedView : (afterResponse config client st response readBuffer).view st.handler =
      { sent := (answered ++ [(st.request, response)]).map Prod.fst } := by
    rw [afterResponse_view, viewEq, List.map_append, List.map_singleton]
  have invokedView : ∀ result,
      ((afterResponse config client st response readBuffer).invoke { st with conn := none }
        result).view st.handler =
          { sent := (answered ++ [(st.request, response)]).map Prod.fst, results := [result] } := by
    intro result
    have invoked := invoke_view (afterResponse config client st response readBuffer)
      { st with conn := none } result
    dsimp only at invoked
    rw [invoked, releasedView]
    rfl
  have final : (st.redirectCount < config.maxRedirects →
      nextRequest config.toClientConfig st.request
        (toHttpResponse st.request.method response) = none) →
      Tracked config request (answered ++ [(st.request, response)])
        ((onResponse beast config client st (.ok (response, readBuffer))).view st.handler) := by
    intro noRedirect
    rw [onResponse_final _ _ _ _ noRedirect, invokedView]
    exact .ended answered st.request response rfl rfl redirected limited rfl (.inr rfl)
  by_cases within : st.redirectCount < config.maxRedirects
  · cases redirects : nextRequest config.toClientConfig st.request
        (toHttpResponse st.request.method response) with
    | none => exact final fun _ => redirects
    | some target =>
        cases target with
        | error what =>
            rw [onResponse_refused _ _ _ _ within redirects, invokedView]
            exact .ended answered st.request response rfl rfl redirected limited rfl (.inl rfl)
        | ok next =>
            rw [onResponse_redirect _ _ _ _ within redirects]
            refine tracked_startRequest releasedView (.follow redirected redirects) ?_ ?_
            · rw [List.length_append, List.length_singleton, countEq]
            · rw [List.length_append, List.length_singleton]
              omega
  · exact final fun less => absurd less within

/-- The end of an operation moves the call on by what it answers. -/
theorem tracked_callback (completion : Completion)
    (viewEq : client.view st.handler =
      { sent := answered.map Prod.fst ++ completion.operation.sentOf st.request })
    (redirected : Redirected (redirect config.toClientConfig) request answered st.request)
    (countEq : st.redirectCount = answered.length)
    (limited : answered.length ≤ config.maxRedirects) :
    Tracked config request (answered ++ completion.answers st.request)
      ((callback beast config client st completion).view st.handler) := by
  have invoked := fun error =>
    tracked_invoke completion.operation error viewEq redirected limited
  have abandoned : ∀ error,
      client.view st.handler = { sent := answered.map Prod.fst ++ [st.request] } →
        Tracked config request answered
          ((Client.invoke (releaseConnection config client st.conn false)
            { st with conn := none } (.error error)).view st.handler) := by
    intro error sentView
    rw [← releaseConnection_view config client st.conn false] at sentView
    exact tracked_invoke .write error sentView redirected limited
  have useStream :
      client.view st.handler = { sent := answered.map Prod.fst } →
        Tracked config request answered ((useStream config client st).view st.handler) :=
    fun sentView => tracked_useStream sentView redirected countEq limited
  cases completion with
  | resolve failed serverNameSet hostSet =>
      have connecting := tracked_start .connect viewEq redirected countEq limited
      simp only [Completion.answers, List.append_nil]
      rw [callback, onResolve, doConnect]
      split_ifs
      all_goals first | exact invoked _ | exact connecting
  | connect failed =>
      have shaking := tracked_start .tlsHandshake viewEq redirected countEq limited
      simp only [Completion.answers, List.append_nil]
      rw [callback, onConnect]
      split_ifs
      · exact invoked _
      · exact shaking
      · exact useStream (viewEq.trans (by simp [Completion.operation, Operation.sentOf]))
  | tlsHandshake failed =>
      simp only [Completion.answers, List.append_nil]
      rw [callback, onTlsHandshake]
      split_ifs
      · exact invoked _
      · exact useStream (viewEq.trans (by simp [Completion.operation, Operation.sentOf]))
  | write failed =>
      have reading := tracked_start .read viewEq redirected countEq limited
      simp only [Completion.answers, List.append_nil]
      rw [callback, onWrite]
      split_ifs
      · exact abandoned _ viewEq
      · exact reading
  | read result =>
      cases result with
      | error error =>
          simp only [Completion.answers, List.append_nil]
          exact abandoned _ viewEq
      | ok received =>
          obtain ⟨response, readBuffer⟩ := received
          exact tracked_onResponse response readBuffer viewEq redirected countEq limited

end Callbacks

/-- A completion of the call moves it on. -/
theorem Tracked.completion {beast : Beast} {config : Config} {request : Request}
    {answered : List (Request × WireResponse)} {client next : Client} {st : RequestState}
    {completion : Completion} (tracked : Tracked config request answered (client.view st.handler))
    (stepped : step beast config client (.completion st completion) = some next) :
    Tracked config request (answered ++ completion.answers st.request) (next.view st.handler) := by
  obtain ⟨outstanding, rfl⟩ := step_completion_eq_some_iff.mp stepped
  have member : { operation := completion.operation, st } ∈
      (client.view st.handler).pendings := by
    simpa [Client.view] using outstanding
  cases tracked with
  | carried operation state pendingsEq resultsEq redirected countEq limited sentEq =>
      obtain ⟨rfl, rfl⟩ : completion.operation = operation ∧ st = state := by
        simpa [pendingsEq] using member
      refine tracked_callback completion ((finish_view pendingsEq).trans ?_) redirected countEq
        limited
      simp only [resultsEq, sentEq]
  | failed _ _ _ pendingsEq => simp [pendingsEq] at member
  | ended _ _ _ pendingsEq => simp [pendingsEq] at member

/-- Each call is tracked with the answers its messages have been given so far;
calls not made yet have been given none. -/
structure AllTracked (config : Config) (past : List (Client × Event)) (client : Client) :
    Prop where
  fresh : client.Fresh
  unanswered : ∀ call, client.calls.length ≤ call → answered past call = []
  tracked : ∀ call request, client.calls[call]? = some request →
    Tracked config request (answered past call) (client.view call)

theorem AllTracked.step {beast : Beast} {config : Config} {past : List (Client × Event)}
    {client next : Client}
    {event : Event} (all : AllTracked config past client)
    (stepped : step beast config client event = some next) :
    AllTracked config (past ++ [(client, event)]) next := by
  have fresh := all.fresh.step stepped
  cases event with
  | call made =>
      obtain ⟨_, rfl⟩ := step_call_eq_some_iff.mp stepped
      refine ⟨fresh, fun call later => ?_, fun call request isCall => ?_⟩
      · rw [onCall, startRequest_calls, List.length_append] at later
        rw [answered_call]
        exact all.unanswered call (Nat.le_trans (Nat.le_add_right _ _) later)
      · rw [answered_call]
        rcases onCall_cases isCall with ⟨madeBefore, viewEq⟩ | ⟨rfl, rfl⟩
        · rw [viewEq]
          exact all.tracked call request madeBefore
        · have empty : Client.view { client with calls := client.calls ++ [request] }
              client.calls.length = {} := all.fresh client.calls.length (Nat.le_refl _)
          rw [all.unanswered _ (Nat.le_refl _)]
          exact tracked_startRequest empty .start rfl (Nat.zero_le _)
  | completion st completion =>
      have other : ∀ call, st.handler ≠ call →
          answered (past ++ [(client, .completion st completion)]) call = answered past call := by
        intro call different
        rw [answered_completion, if_neg different, List.append_nil]
      have sameCalls : next.calls = client.calls := by
        obtain ⟨_, rfl⟩ := step_completion_eq_some_iff.mp stepped
        exact callback_calls config _ st completion
      obtain ⟨outstanding, _⟩ := step_completion_eq_some_iff.mp stepped
      have inside := all.fresh.handler_lt outstanding
      refine ⟨fresh, fun call later => ?_, fun call request isCall => ?_⟩
      · rw [sameCalls] at later
        rw [other call (Nat.ne_of_lt (Nat.lt_of_lt_of_le inside later))]
        exact all.unanswered call later
      · rw [sameCalls] at isCall
        by_cases same : st.handler = call
        · subst same
          rw [answered_completion, if_pos rfl]
          exact (all.tracked _ request isCall).completion stepped
        · rw [other call same, step_view_other same stepped]
          exact all.tracked call request isCall

theorem run_allTracked {beast : Beast} {config : Config} {events : List Event} {client : Client}
    (run : runFrom (step beast config) {} events = some client) :
    AllTracked config (trace (step beast config) {} events) client :=
  invariant_of_trace (AllTracked config) AllTracked.step run
    ⟨fun _ _ => rfl, fun _ _ => rfl, fun call request isCall => by simp at isCall⟩

end RestClientAsync

end ExchangeConnectivity
