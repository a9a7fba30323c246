import ExchangeConnectivity.RestSessionCompletion

/-!
# What a REST session has sent

The operations of a session are started in one order, and its message is given
to `async_write` once at most.  The response the handler is called with tells
how far the session has come: which failures leave the request unsent, and
which may come after it has been carried out.
-/

namespace ExchangeConnectivity

open ActionRuns ByteStrings

namespace RestSession

/-- The operations of a request that succeeds. -/
def pipeline : List Operation :=
  [.execute, .deadline, .resolve, .connect, .handshake, .write, .read]

/-- The operations up to one of them. -/
def through : Operation → List Operation
  | .execute => [.execute]
  | .deadline => [.execute, .deadline]
  | .resolve => [.execute, .deadline, .resolve]
  | .connect => [.execute, .deadline, .resolve, .connect]
  | .handshake => [.execute, .deadline, .resolve, .connect, .handshake]
  | .write => [.execute, .deadline, .resolve, .connect, .handshake, .write]
  | .read => pipeline

theorem through_isPrefix (operation : Operation) : through operation <+: pipeline := by
  cases operation <;> simp [through, pipeline]

/-- What has been started when a session fails with an error.  `httpStatus` and
`invalidResponse` are left to the callers. -/
def StartedAt : RestError → List Operation → Prop
  | .invalidRequest, started => started = through .execute
  | .resolveFailed, started => started = through .resolve
  | .connectFailed, started => started = through .connect
  | .tlsHandshakeFailed, started => started = through .execute ∨ started = through .handshake
  | .writeFailed, started => started = through .write
  | .readFailed, started => started = through .read
  | .timeout, started => through .resolve <+: started
  | .httpStatus, _ => False
  | .invalidResponse, _ => False

def Explains : Response → List Operation → Prop
  | .ok _, started => started = through .read
  | .error failure, started => StartedAt failure.error started

/-- A session for the request: what it has started, the message it has written
and the responses it has given fit together. -/
structure Sent (request : HttpRequest) (session : Session) : Prop where
  request_eq : session.request = request
  in_order : session.started <+: pipeline
  message : session.httpRequest =
    if .write ∈ session.started then some (httpMessage request) else none
  explained : ∀ response ∈ session.invocations, Explains response session.started

/-- A session that is waiting for an operation has started those before it. -/
def WaitsInOrder (session : Session) : Prop :=
  session.state ≠ .completed → ∀ operation ∈ session.outstanding, operation ≠ .deadline →
    session.started = through operation

variable {request : HttpRequest} {session next : Session}

theorem run_sent (request : HttpRequest) : Sent request (run request true) where
  request_eq := rfl
  in_order := ⟨pipeline.tail, rfl⟩
  message := rfl
  explained := fun _ member => absurd member List.not_mem_nil

theorem run_waitsInOrder (request : HttpRequest) : WaitsInOrder (run request true) := by
  intro _ operation member _
  obtain rfl : operation = .execute := List.mem_singleton.mp member
  rfl

theorem Sent.finish (sent : Sent request session) (operation : Operation) :
    Sent request (session.finish operation) :=
  ⟨sent.request_eq, sent.in_order, sent.message, sent.explained⟩

@[simp]
theorem complete_state (session : Session) (response : Response) :
    (complete session response).state = .completed := by
  simp only [complete]
  split
  next completed => exact completed
  · split <;> rfl

theorem waitsInOrder_complete (session : Session) (response : Response) :
    WaitsInOrder (complete session response) :=
  fun incomplete => absurd (complete_state session response) incomplete

theorem Sent.complete (sent : Sent request session) {response : Response}
    (explains : Explains response session.started) :
    Sent request (complete session response) := by
  simp only [RestSession.complete]
  split
  · exact sent
  · split
    · refine ⟨sent.request_eq, sent.in_order, sent.message, ?_⟩
      intro given member
      rw [List.mem_append, List.mem_singleton] at member
      rcases member with member | rfl
      · exact sent.explained given member
      · exact explains
    · exact ⟨sent.request_eq, sent.in_order, sent.message, sent.explained⟩

/-- The session keeps the invariant and still waits in order. -/
structure Proceeds (request : HttpRequest) (session : Session) : Prop where
  sent : Sent request session
  waits : WaitsInOrder session

theorem Sent.completes (sent : Sent request session) {response : Response}
    (explains : Explains response session.started) :
    Proceeds request (RestSession.complete session response) :=
  ⟨sent.complete explains, waitsInOrder_complete session response⟩

/-- The next stage is started while only the deadline is outstanding. -/
theorem proceeds_start {operation following : Operation} (request_eq : session.request = request)
    (silent : session.invocations = []) (quiet : session.outstanding = [.deadline])
    (started : session.started = through operation)
    (follows : through following = through operation ++ [following])
    (message : session.httpRequest =
      if .write ∈ through following then some (httpMessage request) else none) :
    Proceeds request (session.start following) := by
  have startedNext : (session.start following).started = through following := by
    rw [follows, ← started]
    rfl
  refine ⟨⟨request_eq, ?_, ?_, ?_⟩, ?_⟩
  · rw [startedNext]
    exact through_isPrefix following
  · rw [startedNext]
    exact message
  · intro response member
    rw [Session.start, silent] at member
    cases member
  · intro _ waiting member notDeadline
    rw [startedNext]
    simp only [Session.start, quiet, List.mem_append, List.mem_singleton] at member
    rcases member with timer | rfl
    · exact absurd timer notDeadline
    · rfl

theorem execute_proceeds (sent : Sent request session) (silent : session.invocations = [])
    (quiet : session.outstanding = []) (started : session.started = through .execute)
    (tlsName : TlsName) : Proceeds request (execute session tlsName) := by
  have running : Sent request { session with state := .running } :=
    ⟨sent.request_eq, sent.in_order, sent.message, sent.explained⟩
  simp only [execute]
  split
  · exact running.completes started
  · cases tlsName with
    | rejected error => exact running.completes (.inl started)
    | accepted =>
        have waiting : (Session.start { session with state := .running } .deadline).started =
            through .deadline := by
          simp [Session.start, started, through]
        refine proceeds_start sent.request_eq silent ?_ waiting rfl ?_
        · simp [Session.start, quiet]
        · have unsent := sent.message
          rw [started] at unsent
          exact unsent

/-- A stage that ends either fails the session or goes on to the next one. -/
theorem onStage_proceeds (sent : Sent request session) (stateEq : session.state = .running)
    {error : Option Bytes} {failure : RestError} {following : Option Session}
    (explains : StartedAt failure session.started)
    (goesOn : ∀ later, following = some later → Proceeds request later)
    (result : onStage session error failure following = some next) : Proceeds request next := by
  rw [onStage.eq_def, if_neg (by simp [stateEq])] at result
  cases error with
  | some message =>
      obtain rfl : fail session failure message = next := by simpa using result
      exact sent.completes explains
  | none => exact goesOn next result

theorem stage_proceeds (sent : Sent request session) (stateEq : session.state = .running)
    (silent : session.invocations = []) (quiet : session.outstanding = [.deadline])
    {throws : HttpMessage → Bool} {completion : Completion} (isStage : completion.operation.IsStage)
    (started : session.started = through completion.operation)
    (result : callback throws session completion = some next) : Proceeds request next := by
  have onward := @onStage_proceeds request session next sent stateEq
  have message := sent.message
  rw [started] at message
  cases completion with
  | execute tlsName => exact isStage.elim
  | deadline error => exact isStage.elim
  | resolve error =>
      refine onward ?_ ?_ result
      · exact started
      · rintro later ⟨⟩
        exact proceeds_start sent.request_eq silent quiet started rfl message
  | connect error =>
      refine onward ?_ ?_ result
      · exact started
      · rintro later ⟨⟩
        exact proceeds_start sent.request_eq silent quiet started rfl message
  | handshake error =>
      refine onward ?_ ?_ result
      · exact .inr started
      · intro later equal
        split at equal
        · cases equal
        · cases equal
          refine proceeds_start sent.request_eq silent quiet started rfl ?_
          rw [← sent.request_eq]
          rfl
  | write error =>
      refine onward ?_ ?_ result
      · exact started
      · rintro later ⟨⟩
        exact proceeds_start sent.request_eq silent quiet started rfl message
  | read outcome =>
      cases outcome with
      | error text =>
          simp only [callback, onRead] at result
          refine onward ?_ ?_ result
          · exact started
          · rintro later ⟨⟩
      | ok response =>
          simp only [callback, onRead] at result
          refine onward ?_ ?_ result
          · exact started
          · rintro later ⟨⟩
            exact sent.completes started

theorem step_proceeds {throws : HttpMessage → Bool} {completion : Completion}
    (consistent : Consistent session) (proceeds : Proceeds request session)
    (stepped : step throws session completion = some next) : Proceeds request next := by
  obtain ⟨⟨member, cancelled⟩, result⟩ := step_eq_some_iff.mp stepped
  have sent := proceeds.sent.finish completion.operation
  cases consistent with
  | idle stateEq outstandingEq unanswered =>
      rw [outstandingEq, List.mem_singleton] at member
      cases completion with
      | execute tlsName =>
          cases result
          have started := proceeds.waits (by simp [stateEq]) .execute (by simp [outstandingEq])
            (by decide)
          refine execute_proceeds sent unanswered.silent ?_ started tlsName
          simp [Session.finish, outstandingEq, Completion.operation]
      | _ => cases member
  | running stateEq stage isStage outstandingEq unanswered =>
      have notDeadline : stage ≠ .deadline := by
        rintro rfl
        exact isStage.elim
      have started := proceeds.waits (by simp [stateEq]) stage (by simp [outstandingEq])
        notDeadline
      rw [outstandingEq, List.mem_cons, List.mem_singleton] at member
      rcases member with timer | finished
      · cases completion with
        | deadline error =>
            cases error with
            | some message =>
                have armed := unanswered.armed
                rw [cancelled message rfl] at armed
                cases armed
            | none =>
                cases result
                rw [onTimeout, if_neg (by simp [Session.finish, stateEq])]
                refine Sent.completes ?_ ?_
                · exact ⟨sent.request_eq, sent.in_order, sent.message, sent.explained⟩
                · change through .resolve <+: session.started
                  rw [started]
                  cases stage <;> simp [Operation.IsStage, through, pipeline] at isStage ⊢
        | _ => cases timer
      · subst finished
        refine stage_proceeds sent stateEq unanswered.silent ?_ isStage started result
        simp [Session.finish, outstandingEq, notDeadline.symm]
  | completed stateEq executed answered =>
      obtain rfl := eq_finish_of_completed stateEq executed stepped
      exact ⟨sent, fun incomplete => absurd stateEq incomplete⟩

theorem sent_of_run {throws : HttpMessage → Bool} {completions : List Completion}
    (reached : runFrom (step throws) (run request true) completions = some session) :
    Sent request session := by
  have preserved : ∀ {before after : Session} {completion : Completion},
      Consistent before ∧ Proceeds request before →
        step throws before completion = some after →
          Consistent after ∧ Proceeds request after := by
    rintro before after completion ⟨consistent, proceeds⟩ stepped
    exact ⟨step_consistent consistent stepped, step_proceeds consistent proceeds stepped⟩
  exact (invariant_of_run preserved reached
    ⟨run_consistent request, run_sent request, run_waitsInOrder request⟩).2.sent

/-- Whatever completes when, a session starts its operations in one order and
each once at most; it gives `async_write` the message of its request and no
other; and the response tells what has been started by then.  So an invalid
request and a failed resolve, connect or handshake leave the request unsent,
and a response from the server follows exactly one write. -/
theorem response_tells_progress {throws : HttpMessage → Bool} {completions : List Completion}
    (reached : runFrom (step throws) (run request true) completions = some session) :
    session.started <+: pipeline ∧
      session.httpRequest =
        (if .write ∈ session.started then some (httpMessage request) else none) ∧
      ∀ response ∈ session.invocations, Explains response session.started :=
  have sent := sent_of_run reached
  ⟨sent.in_order, sent.message, sent.explained⟩

/-- The deadline passes while the message is being written. -/
theorem response_tells_progress_timeout :
    ∃ completions session,
      runFrom (step fun _ => false) (run { host := ascii "api.binance.com" } true) completions =
          some session ∧
        session.invocations.length = 1 ∧ .write ∈ session.started ∧
          ∀ response ∈ session.invocations, Explains response session.started := by
  have reached : runFrom (step fun _ => false) (run { host := ascii "api.binance.com" } true)
      [.execute .accepted, .resolve none, .connect none, .handshake none, .deadline none,
        .write none] = some _ := rfl
  exact ⟨_, _, reached, rfl, by decide, (response_tells_progress reached).2.2⟩

end RestSession

end ExchangeConnectivity
