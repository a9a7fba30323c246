import ExchangeConnectivity.SnapshotRequests

/-!
# When a snapshot handler is called once

The handler is called inside the block that guards the parser, so an exception
it throws on a snapshot is taken for one of the parser and the handler is called
again with a failure.  Every call is delivered once exactly when no handler
throws a `std::exception` on its snapshot.
-/

namespace ExchangeConnectivity

open ActionRuns ByteStrings

namespace Connector

namespace Snapshots

section Delivery

variable (beast : HttpExchange.Beast) (boost : BoostJson.Library)
  (what : Fault → Bytes) (handlers : Handlers)

/-- What a handler is to be called with: the snapshot if the body parses,
otherwise a failure. -/
def expected : Response → Argument
  | .error failure => .error failure
  | .ok body =>
      match parseSnapshot boost body with
      | .ok snapshot => .ok snapshot
      | .error fault => .error { error := .invalidResponse, message := what fault }

def State.received (state : State) (call : Nat) : List Argument :=
  (state.invocations.filter fun entry => entry.1 = call).map Prod.snd

/-- The handler of each call has been called once with what it is to be called
with, if the request has a result, and else not at all. -/
def Delivered (state : State) : Prop :=
  ∀ call, state.received call =
    ((state.requests[call]?.bind SnapshotRequest.result).map (expected boost what)).toList

/-- The handler of the call throws a `std::exception` on the snapshot of the
body. -/
def Throws (invocations : List (Nat × Argument)) (call : Nat) (body : Bytes) : Prop :=
  ∃ snapshot message, parseSnapshot boost body = .ok snapshot ∧
    handlers invocations call (.ok snapshot) = .throws message

/-- The body of a response with status 200 does not make the handler throw. -/
def Unthrown (state : State) : Event → Prop
  | .completion call (.read (.ok (status, body))) =>
      status = 200 → ¬ Throws boost handlers state.invocations call body
  | _ => True

theorem onSnapshotResponse_of_not_throws {invocations : List (Nat × Argument)} {call : Nat}
    {body : Bytes} (unthrown : ¬ Throws boost handlers invocations call body) :
    onSnapshotResponse boost what handlers invocations call (.ok body) =
      invocations ++ [(call, expected boost what (.ok body))] := by
  rw [onSnapshotResponse, expected]
  cases parsed : parseSnapshot boost body with
  | error fault => rfl
  | ok snapshot =>
      dsimp only
      split
      next message behaviour => exact absurd ⟨snapshot, message, parsed, behaviour⟩ unthrown
      · rfl
      · rfl

theorem onSnapshotResponse_of_throws {invocations : List (Nat × Argument)} {call : Nat}
    {body : Bytes} (throws : Throws boost handlers invocations call body) :
    ∃ failure, onSnapshotResponse boost what handlers invocations call (.ok body) =
      invocations ++ [(call, expected boost what (.ok body)), (call, .error failure)] := by
  obtain ⟨snapshot, message, parsed, behaviour⟩ := throws
  refine ⟨{ error := .invalidResponse, message }, ?_⟩
  rw [onSnapshotResponse, expected, parsed]
  dsimp only
  rw [behaviour]
  simp

/-- A request with an operation outstanding has called no handler. -/
def Waiting (state : State) : Prop :=
  ∀ request ∈ state.requests, request.outstanding ≠ none →
    request.completed = false ∧ request.result = none

/-- A callback goes on with the next operation or finishes the request. -/
inductive Continued (completion : Completion) : SnapshotRequest × Option Response → Prop
  | started (request : SnapshotRequest) (completedEq : request.completed = false)
      (resultEq : request.result = none)
      (notRead : ∀ body, completion ≠ .read (.ok (200, body))) :
      Continued completion (request, none)
  | finished (request : SnapshotRequest) (response : Response)
      (noneOutstanding : request.outstanding = none) (resultEq : request.result = some response)
      (read : ∀ body, response = .ok body → completion = .read (.ok (200, body)))
      (responded : ∀ body, completion = .read (.ok (200, body)) → response = .ok body) :
      Continued completion (request, some response)

theorem continued_fail {completion : Completion} {request : SnapshotRequest}
    (completedEq : request.completed = false) (noneOutstanding : request.outstanding = none)
    (notRead : ∀ body, completion ≠ .read (.ok (200, body))) (error : RestError)
    (message : Bytes) : Continued completion (request.fail error message) := by
  rw [SnapshotRequest.fail, SnapshotRequest.finish, completedEq]
  exact .finished _ _ noneOutstanding rfl nofun fun body isRead => absurd isRead (notRead body)

theorem callback_continued {beast : HttpExchange.Beast} {request : SnapshotRequest}
    (completedEq : request.completed = false)
    (noneOutstanding : request.outstanding = none) (resultEq : request.result = none)
    (completion : Completion) : Continued completion (request.callback beast completion) := by
  cases completion with
  | resolve error =>
      cases error with
      | some error => exact continued_fail completedEq noneOutstanding (by simp) _ error
      | none => exact .started _ completedEq resultEq (by simp)
  | connect error serverNameSet =>
      cases error with
      | some error => exact continued_fail completedEq noneOutstanding (by simp) _ error
      | none =>
          cases serverNameSet with
          | false => exact continued_fail completedEq noneOutstanding (by simp) _ _
          | true => exact .started _ completedEq resultEq (by simp)
  | tlsHandshake error =>
      cases error with
      | some error => exact continued_fail completedEq noneOutstanding (by simp) _ error
      | none => exact .started _ completedEq resultEq (by simp)
  | write error =>
      cases error with
      | some error => exact continued_fail completedEq noneOutstanding (by simp) _ error
      | none => exact .started _ completedEq resultEq (by simp)
  | read result =>
      cases result with
      | error error => exact continued_fail completedEq noneOutstanding (by simp) _ error
      | ok response =>
          obtain ⟨status, body⟩ := response
          rw [SnapshotRequest.callback]
          split
          next notOk =>
            refine continued_fail completedEq noneOutstanding ?_ _ _
            intro other isRead
            cases isRead
            exact notOk rfl
          next isOk =>
            obtain rfl : status = 200 := not_not.mp isOk
            rw [SnapshotRequest.finish, completedEq]
            refine .finished _ _ noneOutstanding rfl ?_ ?_
            · rintro _ ⟨⟩
              rfl
            · rintro _ ⟨⟩
              rfl

theorem step_asyncSnapshot_delivered {state : State} (delivered : Delivered boost what state) :
    Delivered boost what (asyncSnapshot state) := by
  intro call
  refine (delivered call).trans ?_
  rw [asyncSnapshot]
  dsimp only
  rcases Nat.lt_trichotomy call state.requests.length with before | rfl | after
  · rw [List.getElem?_append_left before]
  · simp [newRequest, SnapshotRequest.start]
  · rw [List.getElem?_eq_none (Nat.le_of_lt after), List.getElem?_eq_none]
    rw [List.length_append, List.length_singleton]
    exact after

theorem asyncSnapshot_waiting {state : State} (waiting : Waiting state) :
    Waiting (asyncSnapshot state) := by
  intro request member outstanding
  rw [asyncSnapshot, List.mem_append, List.mem_singleton] at member
  rcases member with member | rfl
  · exact waiting request member outstanding
  · exact ⟨rfl, rfl⟩

theorem step_completion_eq_some_iff {state next : State} {call : Nat}
    {completion : Completion} :
    step beast boost what handlers state (.completion call completion) = some next ↔
      ∃ request, state.requests[call]? = some request ∧
        request.outstanding = some completion.operation ∧
          runCallback beast boost what handlers state call request completion = next := by
  simp only [step, Option.bind_eq_bind, Option.bind_eq_some_iff, Option.ite_none_right_eq_some,
    Option.some_inj]

theorem completion_waiting {state next : State} {call : Nat} {completion : Completion}
    (waiting : Waiting state)
    (stepped : step beast boost what handlers state (.completion call completion) = some next) :
    Waiting next := by
  obtain ⟨request, found, outstandingEq, rfl⟩ :=
    (step_completion_eq_some_iff beast boost what handlers).mp stepped
  obtain ⟨completedEq, resultEq⟩ := waiting request (List.mem_of_getElem? found)
    (by simp [outstandingEq])
  have continued := @callback_continued beast { request with outstanding := none } completedEq rfl
    resultEq completion
  intro other member outstanding
  rw [runCallback] at member
  generalize SnapshotRequest.callback beast { request with outstanding := none } completion = called
    at continued member
  cases continued with
  | started later laterCompleted laterResult =>
      rcases List.mem_or_eq_of_mem_set member with member | rfl
      · exact waiting other member outstanding
      · exact ⟨laterCompleted, laterResult⟩
  | finished later response noneOutstanding =>
      rcases List.mem_or_eq_of_mem_set member with member | rfl
      · exact waiting other member outstanding
      · exact absurd noneOutstanding outstanding

theorem unthrown_of_not_read {state : State} {call : Nat} {completion : Completion}
    (notRead : ∀ body, completion ≠ .read (.ok (200, body))) :
    Unthrown boost handlers state (.completion call completion) := by
  cases completion with
  | read result =>
      cases result with
      | error => trivial
      | ok response =>
          obtain ⟨status, body⟩ := response
          rintro rfl
          exact absurd rfl (notRead body)
  | resolve | connect | tlsHandshake | write => trivial

/-- A request that goes on leaves its call without a delivery. -/
theorem delivered_of_started {state : State} {call : Nat} {request later : SnapshotRequest}
    (delivered : Delivered boost what state) (found : state.requests[call]? = some request)
    (resultEq : request.result = none) (laterResult : later.result = none) :
    Delivered boost what { state with requests := state.requests.set call later } := by
  intro other
  refine (delivered other).trans ?_
  dsimp only
  by_cases same : call = other
  · subst same
    rw [found, List.getElem?_set_self (List.getElem?_eq_some_iff.mp found).1, Option.bind_some,
      Option.bind_some, resultEq, laterResult]
  · rw [List.getElem?_set_ne same]

/-- A request that finishes is delivered if its handler has been called with
just what it is to be called with. -/
theorem delivered_iff_of_finished {state : State} {call : Nat} {request later : SnapshotRequest}
    {response : Response} (delivered : Delivered boost what state)
    (found : state.requests[call]? = some request) (resultEq : request.result = none)
    (laterResult : later.result = some response) (arguments : List Argument) :
    Delivered boost what
        { state with
          requests := state.requests.set call later
          invocations := state.invocations ++ arguments.map fun argument => (call, argument) } ↔
      arguments = [expected boost what response] := by
  have before := delivered call
  rw [found, Option.bind_some, resultEq, Option.map_none, Option.toList_none] at before
  have ownReceived : State.received
      { state with
        requests := state.requests.set call later
        invocations := state.invocations ++ arguments.map fun argument => (call, argument) }
      call = arguments := by
    rw [State.received] at before ⊢
    rw [List.filter_append, List.map_append, before, List.nil_append, List.filter_eq_self.mpr]
    · simp [Function.comp_def]
    · simp
  have ownResult : ((state.requests.set call later)[call]?.bind SnapshotRequest.result) =
      some response := by
    rw [List.getElem?_set_self (List.getElem?_eq_some_iff.mp found).1, Option.bind_some,
      laterResult]
  constructor
  · intro all
    have own := all call
    rw [ownReceived] at own
    dsimp only at own
    rwa [ownResult] at own
  · intro argumentsEq other
    by_cases same : call = other
    · subst same
      rw [ownReceived]
      dsimp only
      rw [ownResult]
      exact argumentsEq
    · refine Eq.trans ?_ ((delivered other).trans ?_)
      · have none : (arguments.map fun argument => (call, argument)).filter
            (fun entry => entry.1 = other) = [] := by
          simp [same]
        rw [State.received, State.received]
        dsimp only
        rw [List.filter_append, none, List.append_nil]
      · dsimp only
        rw [List.getElem?_set_ne same]

/-- Unless the handler throws on the snapshot, a callback delivers what the
request results in. -/
theorem unthrown_iff_delivered {state next : State} {call : Nat} {completion : Completion}
    (waiting : Waiting state) (delivered : Delivered boost what state)
    (stepped : step beast boost what handlers state (.completion call completion) = some next) :
    Unthrown boost handlers state (.completion call completion) ↔
      Delivered boost what next := by
  obtain ⟨request, found, outstandingEq, rfl⟩ :=
    (step_completion_eq_some_iff beast boost what handlers).mp stepped
  obtain ⟨completedEq, resultEq⟩ := waiting request (List.mem_of_getElem? found)
    (by simp [outstandingEq])
  have continued := @callback_continued beast { request with outstanding := none } completedEq rfl
    resultEq completion
  rw [runCallback]
  generalize SnapshotRequest.callback beast { request with outstanding := none } completion = called
    at continued
  cases continued with
  | started later _ laterResult notRead =>
      exact iff_of_true (unthrown_of_not_read boost handlers notRead)
        (delivered_of_started boost what delivered found resultEq laterResult)
  | finished later response _ laterResult read responded =>
      have decided := delivered_iff_of_finished boost what delivered found resultEq laterResult
      cases response with
      | error failure =>
          refine iff_of_true (unthrown_of_not_read boost handlers fun body isRead => ?_)
            ((decided [.error failure]).mpr rfl)
          exact nomatch responded body isRead
      | ok body =>
          obtain rfl := read body rfl
          dsimp only
          rw [Unthrown, forall_prop_of_true rfl]
          by_cases throws : Throws boost handlers state.invocations call body
          · obtain ⟨failure, calledTwice⟩ :=
              onSnapshotResponse_of_throws boost what handlers throws
            rw [calledTwice]
            refine iff_of_false (not_not.mpr throws) fun all => ?_
            have single := (decided [expected boost what (.ok body), .error failure]).mp all
            simp at single
          · rw [onSnapshotResponse_of_not_throws boost what handlers throws]
            exact iff_of_true throws ((decided [expected boost what (.ok body)]).mpr rfl)

/-- A connector whose calls have been delivered so far. -/
def DeliveredSoFar (state : State) : Prop :=
  Delivered boost what state ∧ Waiting state

/-- In every state of a run each handler has been called once with what its
call results in, exactly when at every step of the run no handler throws a
`std::exception` on its snapshot. -/
theorem delivered_once_iff (symbol : Bytes) (events : List Event) :
    EveryState (step beast boost what handlers) (Delivered boost what) { symbol := toLower symbol }
        events ↔
      EveryStep (step beast boost what handlers) (Unthrown boost handlers)
        { symbol := toLower symbol } events := by
  have initially : DeliveredSoFar boost what { symbol := toLower symbol } :=
    ⟨fun _ => rfl, nofun⟩
  refine everyState_iff_everyStep ?_ ?_ events initially initially.1
  · rintro state next event ⟨delivered, waiting⟩ stepped
    cases event with
    | asyncSnapshot =>
        obtain rfl : asyncSnapshot state = next := by simpa [step] using stepped
        exact iff_of_true trivial (step_asyncSnapshot_delivered boost what delivered)
    | completion call completion =>
        exact unthrown_iff_delivered beast boost what handlers waiting delivered stepped
  · rintro state next event ⟨delivered, waiting⟩ stepped unthrown
    cases event with
    | asyncSnapshot =>
        obtain rfl : asyncSnapshot state = next := by simpa [step] using stepped
        exact ⟨step_asyncSnapshot_delivered boost what delivered, asyncSnapshot_waiting waiting⟩
    | completion call completion =>
        exact ⟨(unthrown_iff_delivered beast boost what handlers waiting delivered
            stepped).mp unthrown,
          completion_waiting beast boost what handlers waiting stepped⟩

end Delivery

/-- A snapshot without levels. -/
def emptySnapshot : Json :=
  .object
    [(ascii "lastUpdateId", .uint64 1), (ascii "bids", .array []), (ascii "asks", .array [])]

/-- A handler that throws on the snapshot is called again with a failure. -/
theorem throwing_handler_called_twice :
    ∃ events state,
      runFrom
          (step .simple (.documented fun _ => .ok emptySnapshot) (fun _ => []) fun _ _ argument =>
            match argument with
            | .ok _ => .throws [33]
            | .error _ => .returns)
          { symbol := [98] } events = some state ∧
        state.received 0 =
          [.ok { lastUpdateId := 1, bids := [], asks := [] },
            .error { error := .invalidResponse, message := [33] }] ∧
          ¬ Delivered (.documented fun _ => .ok emptySnapshot) (fun _ => []) state := by
  refine
    ⟨[.asyncSnapshot, .completion 0 (.resolve none), .completion 0 (.connect none true),
        .completion 0 (.tlsHandshake none), .completion 0 (.write none),
        .completion 0 (.read (.ok (200, [])))],
      _, rfl, rfl, ?_⟩
  intro delivered
  have once := congrArg List.length (delivered 0)
  cases once

end Snapshots

end Connector

end ExchangeConnectivity
