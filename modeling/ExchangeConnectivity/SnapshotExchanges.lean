import ExchangeConnectivity.SnapshotDelivery

/-!
# The exchange behind a snapshot

Whatever the order in which the operations of several calls end: each call has
an exchange of its own, which starts its operations in one order, asks for the
depth of the symbol the connector was made for, and is answered by what the
last of its operations results in.
-/

namespace ExchangeConnectivity

open ActionRuns ByteStrings

namespace Connector

namespace Snapshots

/-- The operations up to one of them. -/
def through : Operation → List Operation
  | .resolve => [.resolve]
  | .connect => [.resolve, .connect]
  | .tlsHandshake => [.resolve, .connect, .tlsHandshake]
  | .write => [.resolve, .connect, .tlsHandshake, .write]
  | .read => [.resolve, .connect, .tlsHandshake, .write, .read]

/-- What the end of an operation results in for the caller; nothing as long as
the request goes on. -/
def Completion.response : Completion → Option Response
  | .resolve error => error.map fun message => .error { error := .resolveFailed, message }
  | .connect (some message) _ => some (.error { error := .connectFailed, message })
  | .connect none serverNameSet =>
      if serverNameSet then none
      else some (.error
        { error := .tlsHandshakeFailed, message := ascii "Failed to configure TLS SNI" })
  | .tlsHandshake error =>
      error.map fun message => .error { error := .tlsHandshakeFailed, message }
  | .write error => error.map fun message => .error { error := .writeFailed, message }
  | .read (.error message) => some (.error { error := .readFailed, message })
  | .read (.ok (status, body)) =>
      if status = 200 then some (.ok body)
      else some (.error
        { message := ascii ("HTTP status " ++ toString status ++ ": ") ++ body })

/-- The message that asks for the depth of a symbol. -/
def depthMessage (symbol : Bytes) : HttpExchange.HttpMessage where
  method := .get
  target := ascii "/api/v3/depth?symbol=" ++ toUpper symbol ++ ascii "&limit=1000"
  fields :=
    [(ascii "Host", ascii "api.binance.com"), (ascii "User-Agent", ascii "BinanceConnector/1.0"),
      (ascii "Accept", ascii "application/json")]

/-- The operations that a request has started, if these have ended. -/
def SnapshotRequest.started (request : SnapshotRequest) (ended : List Completion) :
    List Operation :=
  ended.map Completion.operation ++ request.outstanding.toList

/-- The request for the depth of a symbol after these operations have ended: it
waits for the next one or has what the last one results in. -/
structure Exchanged (symbol : Bytes) (ended : List Completion) (request : SnapshotRequest) :
    Prop where
  symbol_eq : request.symbol = toUpper symbol
  in_order : ∃ operation, request.started ended = through operation
  message : request.request =
    if .write ∈ request.started ended then some (depthMessage symbol) else none
  went_on : ∀ completion ∈ ended.dropLast, completion.response = none
  result_eq : request.result = ended.getLast?.bind Completion.response
  completed_eq : request.completed = request.result.isSome
  waits_iff : request.outstanding ≠ none ↔ request.result = none

/-- What a handler has been called with, once its request has a result: just
what it is to be called with, unless it throws on the snapshot. -/
inductive Answered (boost : BoostJson.Library) (what : Fault → Bytes)
    (handlers : Handlers) (call : Nat) : Option Response → List Argument → Prop
  | waits : Answered boost what handlers call none []
  | once (response : Response) :
      Answered boost what handlers call (some response) [expected boost what response]
  | again (body : Bytes) (snapshot : Snapshot) (invocations : List (Nat × Argument))
      (message : Bytes) (parsed : parseSnapshot boost body = .ok snapshot)
      (throws : handlers invocations call (.ok snapshot) = .throws message) :
      Answered boost what handlers call (some (.ok body))
        [.ok snapshot, .error { message }]

theorem toUpper_toLower (symbol : Bytes) : toUpper (toLower symbol) = toUpper symbol := by
  rw [toUpper, toUpper, toLower, List.map_map]
  refine List.map_congr_left fun byte _ => ?_
  rw [Function.comp_apply]
  have letters : 'A'.toUInt8 = 65 ∧ 'Z'.toUInt8 = 90 ∧ 'a'.toUInt8 = 97 ∧ 'z'.toUInt8 = 122 := by
    decide
  obtain ⟨upperA, upperZ, lowerA, lowerZ⟩ := letters
  rw [upperA, upperZ, lowerA, lowerZ]
  grind

section Request

variable {symbol : Bytes} {ended : List Completion} {request : SnapshotRequest}
  {completion : Completion}

theorem through_eq_concat (operation : Operation) :
    ∃ earlier, through operation = earlier ++ [operation] := by
  cases operation with
  | resolve => exact ⟨[], rfl⟩
  | connect => exact ⟨[.resolve], rfl⟩
  | tlsHandshake => exact ⟨[.resolve, .connect], rfl⟩
  | write => exact ⟨[.resolve, .connect, .tlsHandshake], rfl⟩
  | read => exact ⟨[.resolve, .connect, .tlsHandshake, .write], rfl⟩

theorem exchanged_start (symbol : Bytes) :
    Exchanged symbol [] (newRequest (toLower symbol)).start where
  symbol_eq := toUpper_toLower symbol
  in_order := ⟨.resolve, rfl⟩
  message := rfl
  went_on := nofun
  result_eq := rfl
  completed_eq := rfl
  waits_iff := by simp [newRequest, SnapshotRequest.start]

/-- An operation that ends was started last, when those before had gone on. -/
theorem Exchanged.ending (exchanged : Exchanged symbol ended request)
    (waiting : request.outstanding = some completion.operation) :
    (ended ++ [completion]).map Completion.operation = through completion.operation ∧
      ∀ earlier ∈ ended, earlier.response = none := by
  obtain ⟨operation, startedEq⟩ := exchanged.in_order
  obtain ⟨before, throughEq⟩ := through_eq_concat operation
  have resultNone : request.result = none :=
    exchanged.waits_iff.mp (by simp [waiting])
  rw [SnapshotRequest.started, waiting, Option.toList_some] at startedEq
  constructor
  · obtain ⟨_, sameOperation⟩ := List.append_inj' (startedEq.trans throughEq) rfl
    rw [List.map_append, List.map_singleton, startedEq, List.singleton_inj.mp sameOperation]
  · intro earlier member
    rcases List.eq_nil_or_concat' ended with rfl | ⟨others, last, rfl⟩
    · cases member
    · have resultEq := exchanged.result_eq
      rw [resultNone, List.getLast?_concat, Option.bind_some] at resultEq
      rw [List.mem_append, List.mem_singleton] at member
      rcases member with member | rfl
      · exact exchanged.went_on earlier (by simpa using member)
      · exact resultEq.symm

/-- A request that goes on starts the next operation. -/
theorem Exchanged.goOn (exchanged : Exchanged symbol ended request)
    (waiting : request.outstanding = some completion.operation)
    (goesOn : completion.response = none) {following : Operation}
    (follows : through following = through completion.operation ++ [following])
    {message : Option HttpExchange.HttpMessage}
    (messageEq : message =
      if .write ∈ through following then some (depthMessage symbol) else none) :
    Exchanged symbol (ended ++ [completion])
      { request with request := message, outstanding := some following } := by
  obtain ⟨inOrder, wentOn⟩ := exchanged.ending waiting
  have resultNone : request.result = none := exchanged.waits_iff.mp (by simp [waiting])
  have startedEq : SnapshotRequest.started
      { request with request := message, outstanding := some following }
      (ended ++ [completion]) = through following := by
    rw [SnapshotRequest.started, inOrder, follows, Option.toList_some]
  refine ⟨exchanged.symbol_eq, ⟨following, startedEq⟩, ?_, ?_, ?_, exchanged.completed_eq, ?_⟩
  · rw [startedEq]
    exact messageEq
  · rw [List.dropLast_concat]
    exact wentOn
  · rw [List.getLast?_concat, Option.bind_some, goesOn]
    exact resultNone
  · exact iff_of_true (by simp) resultNone

/-- A request whose operation results in a response ends with it. -/
theorem Exchanged.finish (exchanged : Exchanged symbol ended request)
    (waiting : request.outstanding = some completion.operation) {response : Response}
    (responds : completion.response = some response) :
    Exchanged symbol (ended ++ [completion])
      { request with outstanding := none, completed := true, result := some response } := by
  obtain ⟨inOrder, wentOn⟩ := exchanged.ending waiting
  have sameStarted : SnapshotRequest.started
      { request with outstanding := none, completed := true, result := some response }
      (ended ++ [completion]) = request.started ended := by
    rw [SnapshotRequest.started, SnapshotRequest.started, waiting, List.map_append]
    exact List.append_nil _
  refine ⟨exchanged.symbol_eq, ⟨completion.operation, ?_⟩, ?_, ?_, ?_, rfl, ?_⟩
  · rw [SnapshotRequest.started, inOrder]
    exact List.append_nil _
  · rw [sameStarted]
    exact exchanged.message
  · rw [List.dropLast_concat]
    exact wentOn
  · rw [List.getLast?_concat, Option.bind_some, responds]
  · exact iff_of_false (by simp) (by simp)

theorem sendRequest_message (beast : HttpExchange.Beast) (request : SnapshotRequest)
    (symbolEq : request.symbol = toUpper symbol) :
    request.sendRequest beast =
      ({ request with request := some (depthMessage symbol), outstanding := some .write },
        none) := by
  let bare : HttpExchange.HttpMessage :=
    { method := .get
      target := ascii "/api/v3/depth?symbol=" ++ request.symbol ++ ascii "&limit=1000" }
  have fields : beast.set (beast.set (beast.set bare (ascii "Host") (ascii "api.binance.com"))
      (ascii "User-Agent") (ascii "BinanceConnector/1.0"))
      (ascii "Accept") (ascii "application/json") = depthMessage symbol := by
    rw [depthMessage, ← symbolEq, beast.set_eq, beast.set_eq, beast.set_eq]
    rfl
  rw [SnapshotRequest.sendRequest]
  exact congrArg (fun message =>
    ({ request with request := some message, outstanding := some .write }, none)) fields

/-- A callback hands on what the end of its operation results in. -/
theorem Exchanged.callback {beast : HttpExchange.Beast} (exchanged : Exchanged symbol ended request)
    (waiting : request.outstanding = some completion.operation) :
    ∃ later, SnapshotRequest.callback beast { request with outstanding := none } completion =
        (later, completion.response) ∧ Exchanged symbol (ended ++ [completion]) later := by
  have resultNone : request.result = none := exchanged.waits_iff.mp (by simp [waiting])
  have incomplete : request.completed = false := by rw [exchanged.completed_eq, resultNone]; rfl
  have message := exchanged.message
  rw [SnapshotRequest.started, waiting, Option.toList_some, ← List.map_singleton,
    ← List.map_append, (exchanged.ending waiting).1] at message
  have finishes : ∀ response, completion.response = some response →
      SnapshotRequest.callback beast { request with outstanding := none } completion =
        SnapshotRequest.finish { request with outstanding := none } response →
      ∃ later, SnapshotRequest.callback beast { request with outstanding := none } completion =
          (later, completion.response) ∧ Exchanged symbol (ended ++ [completion]) later := by
    intro response responds called
    refine ⟨_, ?_, exchanged.finish waiting responds⟩
    rw [called, responds, SnapshotRequest.finish, incomplete]
    rfl
  cases completion with
  | resolve error =>
      cases error with
      | some error => exact finishes _ rfl rfl
      | none => exact ⟨_, rfl, exchanged.goOn waiting rfl rfl message⟩
  | connect error serverNameSet =>
      cases error with
      | some error => exact finishes _ rfl rfl
      | none =>
          cases serverNameSet with
          | false => exact finishes _ rfl rfl
          | true => exact ⟨_, rfl, exchanged.goOn waiting rfl rfl message⟩
  | tlsHandshake error =>
      cases error with
      | some error => exact finishes _ rfl rfl
      | none =>
          have writes : through .write = through .tlsHandshake ++ [.write] := rfl
          refine ⟨_, ?_, exchanged.goOn waiting rfl writes rfl⟩
          exact sendRequest_message beast { request with outstanding := none } exchanged.symbol_eq
  | write error =>
      cases error with
      | some error => exact finishes _ rfl rfl
      | none => exact ⟨_, rfl, exchanged.goOn waiting rfl rfl message⟩
  | read result =>
      cases result with
      | error error => exact finishes _ rfl rfl
      | ok response =>
          obtain ⟨status, body⟩ := response
          by_cases isOk : status = 200
          · refine finishes (.ok body) (if_pos isOk) ?_
            rw [SnapshotRequest.callback, if_neg (not_not.mpr isOk)]
          · refine finishes _ (if_neg isOk) ?_
            rw [SnapshotRequest.callback, if_pos isOk]
            rfl

end Request

/-- The completions of a call, in order. -/
def completions (events : List Event) (call : Nat) : List Completion :=
  events.filterMap fun event =>
    match event with
    | .asyncSnapshot => none
    | .completion other completion => if other = call then some completion else none

theorem completions_asyncSnapshot (events : List Event) (call : Nat) :
    completions (events ++ [.asyncSnapshot]) call = completions events call := by
  simp [completions]

theorem completions_completion (events : List Event) (call : Nat) (completion : Completion) :
    completions (events ++ [.completion call completion]) call =
      completions events call ++ [completion] := by
  simp [completions]

theorem completions_other (events : List Event) {other call : Nat} (different : other ≠ call)
    (completion : Completion) :
    completions (events ++ [.completion other completion]) call = completions events call := by
  simp [completions, different]

section Calls

variable {beast : HttpExchange.Beast} {boost : BoostJson.Library}
  {what : Fault → Bytes} {handlers : Handlers}
  {state : State}

theorem onSnapshotResponse_answered (invocations : List (Nat × Argument)) (call : Nat)
    (response : Response) :
    ∃ arguments, onSnapshotResponse boost what handlers invocations call response =
        invocations ++ arguments.map (fun argument => (call, argument)) ∧
      Answered boost what handlers call (some response) arguments := by
  cases response with
  | error failure => exact ⟨_, rfl, .once (.error failure)⟩
  | ok body =>
      have once : Answered boost what handlers call (some (.ok body))
          [expected boost what (.ok body)] := .once (.ok body)
      rw [onSnapshotResponse]
      rw [expected] at once
      cases parsed : parseSnapshot boost body with
      | error fault =>
          rw [parsed] at once
          exact ⟨_, rfl, once⟩
      | ok snapshot =>
          rw [parsed] at once
          dsimp only
          split
          next message throws =>
            refine ⟨_, ?_, .again body snapshot invocations message parsed throws⟩
            exact List.append_assoc _ _ _
          · exact ⟨_, rfl, once⟩
          · exact ⟨_, rfl, once⟩

theorem Answered.eq_nil {call : Nat} {arguments : List Argument}
    (answered : Answered boost what handlers call none arguments) : arguments = [] := by
  cases answered
  rfl

theorem received_append (requests : List SnapshotRequest) (call : Nat)
    (arguments : List Argument) (other : Nat) :
    State.received
        { state with
          requests
          invocations := state.invocations ++ arguments.map fun argument => (call, argument) }
        other =
      state.received other ++ if call = other then arguments else [] := by
  rw [State.received, State.received, List.filter_append, List.map_append]
  split_ifs with same
  · subst same
    have all : (arguments.map fun argument => (call, argument)).filter
        (fun entry => entry.1 = call) = arguments.map fun argument => (call, argument) := by
      simp [List.filter_eq_self]
    rw [all, List.map_map]
    exact congrArg (_ ++ ·) (List.map_id arguments)
  · have none : (arguments.map fun argument => (call, argument)).filter
        (fun entry => entry.1 = other) = [] := by
      simp [same]
    rw [none, List.map_nil]

/-- Every call has its exchange and its answer; calls not made yet have
neither. -/
structure Recorded (boost : BoostJson.Library) (what : Fault → Bytes)
    (handlers : Handlers) (symbol : Bytes) (events : List Event) (state : State) : Prop where
  symbol_eq : state.symbol = toLower symbol
  unmade : ∀ call, state.requests.length ≤ call →
    completions events call = [] ∧ state.received call = []
  exchanged : ∀ call request, state.requests[call]? = some request →
    Exchanged symbol (completions events call) request ∧
      Answered boost what handlers call request.result (state.received call)

variable {symbol : Bytes} {events : List Event} {next : State}

theorem Recorded.asyncSnapshot (recorded : Recorded boost what handlers symbol events state) :
    Recorded boost what handlers symbol (events ++ [.asyncSnapshot]) (asyncSnapshot state) := by
  refine ⟨recorded.symbol_eq, fun call later => ?_, fun call request found => ?_⟩
  · rw [Snapshots.asyncSnapshot, List.length_append] at later
    rw [completions_asyncSnapshot]
    exact recorded.unmade call (Nat.le_trans (Nat.le_add_right _ _) later)
  · rw [completions_asyncSnapshot]
    rw [Snapshots.asyncSnapshot, List.getElem?_append] at found
    split_ifs at found with before
    · exact recorded.exchanged call request found
    · obtain ⟨noCompletions, noArguments⟩ := recorded.unmade call (Nat.not_lt.mp before)
      obtain rfl : (newRequest state.symbol).start = request :=
        List.mem_singleton.mp (List.mem_of_getElem? found) |>.symm
      have unanswered : State.received (Snapshots.asyncSnapshot state) call = [] := noArguments
      rw [noCompletions, unanswered, recorded.symbol_eq]
      exact ⟨exchanged_start symbol, .waits⟩

theorem Recorded.completion (recorded : Recorded boost what handlers symbol events state)
    {call : Nat} {completion : Completion}
    (stepped : step beast boost what handlers state (.completion call completion) = some next) :
    Recorded boost what handlers symbol (events ++ [.completion call completion]) next := by
  obtain ⟨request, found, waiting, rfl⟩ :=
    (step_completion_eq_some_iff beast boost what handlers).mp stepped
  obtain ⟨exchanged, answered⟩ := recorded.exchanged call request found
  obtain ⟨inside, _⟩ := List.getElem?_eq_some_iff.mp found
  obtain ⟨later, called, exchangedLater⟩ := exchanged.callback waiting
  have resultNone : request.result = none := exchanged.waits_iff.mp (by simp [waiting])
  have receivedNone : state.received call = [] := by
    rw [resultNone] at answered
    exact answered.eq_nil
  obtain ⟨arguments, answeredLater, nextEq⟩ : ∃ arguments,
      Answered boost what handlers call later.result arguments ∧
        runCallback beast boost what handlers state call request completion =
          { state with
            requests := state.requests.set call later
            invocations :=
              state.invocations ++ arguments.map fun argument => (call, argument) } := by
    have resultEq := exchangedLater.result_eq
    rw [List.getLast?_concat, Option.bind_some] at resultEq
    rw [resultEq, runCallback, called]
    cases completion.response with
    | none => exact ⟨[], .waits, by simp⟩
    | some response =>
        obtain ⟨arguments, given, answeredLater⟩ :=
          @onSnapshotResponse_answered boost what handlers state.invocations call response
        refine ⟨arguments, answeredLater, ?_⟩
        dsimp only
        rw [given]
  rw [nextEq]
  have received := @received_append state (state.requests.set call later) call arguments
  refine ⟨recorded.symbol_eq, fun other unmade => ?_, fun other request isRequest => ?_⟩
  · rw [List.length_set] at unmade
    have different : call ≠ other := Nat.ne_of_lt (Nat.lt_of_lt_of_le inside unmade)
    rw [completions_other events different, received, if_neg different, List.append_nil]
    exact recorded.unmade other unmade
  · rw [received]
    by_cases same : call = other
    · subst same
      rw [List.getElem?_set_self inside, Option.some_inj] at isRequest
      subst isRequest
      rw [completions_completion, if_pos rfl, receivedNone]
      exact ⟨exchangedLater, answeredLater⟩
    · rw [List.getElem?_set_ne same] at isRequest
      rw [completions_other events same, if_neg same, List.append_nil]
      exact recorded.exchanged other request isRequest

theorem Recorded.step {event : Event}
    (recorded : Recorded boost what handlers symbol events state)
    (stepped : step beast boost what handlers state event = some next) :
    Recorded boost what handlers symbol (events ++ [event]) next := by
  cases event with
  | asyncSnapshot =>
      obtain rfl : Snapshots.asyncSnapshot state = next := Option.some.inj stepped
      exact recorded.asyncSnapshot
  | completion call completion => exact recorded.completion stepped

end Calls

section Runs

variable (beast : HttpExchange.Beast) (boost : BoostJson.Library)
  (what : Fault → Bytes) (handlers : Handlers)

/-- In every run of the snapshot calls each request has started its operations
in one order, has asked for the depth of its symbol exactly when it has started
its write, and waits for its next operation or has what the last one results in;
its handler has then been called with that, and once more only if it throws on
the snapshot. -/
theorem snapshots_exchanged (symbol : Bytes) {events : List Event} {state : State}
    (run : runFrom (step beast boost what handlers) { symbol := toLower symbol } events =
      some state)
    {call : Nat} {request : SnapshotRequest} (isCall : state.requests[call]? = some request) :
    Exchanged symbol (completions events call) request ∧
      Answered boost what handlers call request.result (state.received call) := by
  have recorded : Recorded boost what handlers symbol events state :=
    invariant_of_actions (Recorded boost what handlers symbol) Recorded.step run
      ⟨rfl, fun _ _ => ⟨rfl, rfl⟩, nofun⟩
  exact recorded.exchanged call request isCall

end Runs

/-- Of two calls under way the second is answered first, and the first fails
when it writes its message. -/
theorem snapshots_exchanged_two :
    ∃ boost what handlers events state first second,
      runFrom (step .simple boost what handlers) { symbol := toLower (ascii "btcUSDT") } events =
          some state ∧
        state.requests = [first, second] ∧
        (Exchanged (ascii "btcUSDT") (completions events 0) first ∧
          first.result = some (.error { error := .writeFailed, message := [33] })) ∧
          Exchanged (ascii "btcUSDT") (completions events 1) second ∧
            (depthMessage (ascii "btcUSDT")).target =
              ascii "/api/v3/depth?symbol=BTCUSDT&limit=1000" ∧
            Answered boost what handlers 1 (some (.ok [])) (state.received 1) := by
  let boost := BoostJson.Library.documented fun _ => .ok emptySnapshot
  let handlers : Handlers := fun _ _ _ => .returns
  let events : List Event :=
    [.asyncSnapshot, .asyncSnapshot, .completion 0 (.resolve none), .completion 1 (.resolve none),
      .completion 1 (.connect none true), .completion 0 (.connect none true),
      .completion 1 (.tlsHandshake none), .completion 1 (.write none),
      .completion 0 (.tlsHandshake none), .completion 1 (.read (.ok (200, []))),
      .completion 0 (.write (some [33]))]
  have completes : (runFrom (step .simple boost (fun _ => []) handlers)
      { symbol := toLower (ascii "btcUSDT") } events).map (fun state =>
        (state.requests.length, state.requests.map SnapshotRequest.result)) =
      some (2, [some (.error { error := .writeFailed, message := [33] }), some (.ok [])]) := by
    decide +kernel
  obtain ⟨state, run, ended⟩ := Option.map_eq_some_iff.mp completes
  obtain ⟨lengthEq, resultsEq⟩ := Prod.mk.inj ended
  obtain ⟨first, second, requestsEq⟩ := List.length_eq_two.mp lengthEq
  rw [requestsEq, List.map_cons, List.map_singleton, List.cons.injEq, List.singleton_inj]
    at resultsEq
  obtain ⟨firstResult, secondResult⟩ := resultsEq
  have isFirst : state.requests[0]? = some first := by rw [requestsEq]; rfl
  have isSecond : state.requests[1]? = some second := by rw [requestsEq]; rfl
  obtain ⟨firstExchanged, _⟩ :=
    snapshots_exchanged .simple boost (fun _ => []) handlers (ascii "btcUSDT") run isFirst
  obtain ⟨secondExchanged, answered⟩ :=
    snapshots_exchanged .simple boost (fun _ => []) handlers (ascii "btcUSDT") run isSecond
  rw [secondResult] at answered
  exact ⟨boost, fun _ => [], handlers, events, state, first, second, run, requestsEq,
    ⟨firstExchanged, firstResult⟩, secondExchanged, by decide +kernel, answered⟩

end Snapshots

end Connector

end ExchangeConnectivity
