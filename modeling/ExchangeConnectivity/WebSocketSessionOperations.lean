import ExchangeConnectivity.WebSocketSessionRuns

/-!
# Operations and the handler of the WebSocket session

In every order of posted calls and completions operations overlap only as
Beast allows, and after a stop none is started and the handler is left alone.
-/

namespace ExchangeConnectivity

open ActionRuns ByteStrings

namespace WebSocketSession

/-- Every read and write so far was started on a connected session. -/
def TransfersConnected (session : Session) : Prop :=
  ∀ entry ∈ session.started, entry.2.kind ≠ .stage → entry.1 = .connected

theorem TransfersConnected.start {session : Session} (transfers : TransfersConnected session)
    (operation : Operation) (allowed : operation.kind ≠ .stage → session.state = .connected) :
    TransfersConnected (session.start operation) := by
  intro entry member transfer
  rw [Session.start, List.mem_append, List.mem_singleton] at member
  rcases member with member | rfl
  · exact transfers entry member transfer
  · exact allowed transfer

theorem TransfersConnected.stopNow {session : Session} (transfers : TransfersConnected session) :
    TransfersConnected (stopNow session) := by
  rw [WebSocketSession.stopNow]
  split <;> exact transfers

theorem TransfersConnected.fail {session : Session} (transfers : TransfersConnected session)
    (operation : String) (error : ErrorCode) :
    TransfersConnected (fail session operation error) := by
  rw [WebSocketSession.fail]
  split
  · refine TransfersConnected.stopNow ?_
    exact transfers
  · exact transfers.stopNow

theorem TransfersConnected.read {session : Session} (transfers : TransfersConnected session) :
    TransfersConnected (read session) := by
  rw [WebSocketSession.read]
  split
  · exact transfers
  next connected => exact transfers.start .read fun _ => not_not.mp connected

theorem TransfersConnected.write {session : Session} (transfers : TransfersConnected session) :
    TransfersConnected (write session) := by
  rw [WebSocketSession.write]
  split
  · exact transfers
  · split
    · exact transfers
    next ready =>
      rw [not_or, not_not] at ready
      refine TransfersConnected.start ?_ _ fun _ => ready.1
      exact transfers

theorem TransfersConnected.callback {session : Session} (transfers : TransfersConnected session)
    (completion : Completion) : TransfersConnected (callback session completion) := by
  cases completion with
  | resolve error =>
      rw [WebSocketSession.callback, onResolve.eq_def]
      split
      · exact transfers
      · cases error with
        | some error => exact transfers.fail _ error
        | none => exact transfers.start .connect (absurd rfl)
  | connect error serverNameSet =>
      rw [WebSocketSession.callback, onConnect.eq_def]
      split
      · exact transfers
      · cases error with
        | some error => exact transfers.fail _ error
        | none =>
            cases serverNameSet with
            | false =>
                refine TransfersConnected.stopNow ?_
                exact transfers
            | true => exact transfers.start .tlsHandshake (absurd rfl)
  | tlsHandshake error =>
      rw [WebSocketSession.callback, onTlsHandshake.eq_def]
      split
      · exact transfers
      · cases error with
        | some error => exact transfers.fail _ error
        | none => exact transfers.start .handshake (absurd rfl)
  | handshake error =>
      rw [WebSocketSession.callback, onHandshake.eq_def]
      split
      · exact transfers
      · cases error with
        | some error => exact transfers.fail _ error
        | none =>
            refine TransfersConnected.write (TransfersConnected.read ?_)
            exact transfers
  | read result =>
      rw [WebSocketSession.callback, onRead.eq_def]
      split
      · exact transfers
      · cases result with
        | error error =>
            cases error with
            | closed => exact transfers.stopNow
            | operationAborted => exact transfers.fail _ .operationAborted
            | other message => exact transfers.fail _ (.other message)
        | ok message =>
            refine TransfersConnected.read ?_
            split <;> exact transfers
  | write element message error =>
      rw [WebSocketSession.callback, onWrite.eq_def]
      split
      · exact transfers
      · cases error with
        | some error =>
            refine TransfersConnected.fail ?_ _ error
            exact transfers
        | none =>
            refine TransfersConnected.write ?_
            exact transfers

theorem TransfersConnected.step {session next : Session} {event : Event}
    (transfers : TransfersConnected session) (stepped : step session event = some next) :
    TransfersConnected next := by
  cases event with
  | start =>
      obtain rfl : onStart session = next := by simpa [WebSocketSession.step] using stepped
      rw [onStart]
      split
      · exact transfers
      · refine TransfersConnected.start ?_ .resolve (absurd rfl)
        exact transfers
  | send message =>
      obtain rfl : onSend session message = next := by
        simpa [WebSocketSession.step] using stepped
      rw [onSend]
      split
      · exact transfers
      · refine TransfersConnected.write ?_
        exact transfers
  | stop =>
      obtain rfl : WebSocketSession.stopNow session = next := by
        simpa [WebSocketSession.step] using stepped
      exact transfers.stopNow
  | completion completion =>
      obtain ⟨_, rfl⟩ := step_completion_eq_some_iff.mp stepped
      refine TransfersConnected.callback ?_ completion
      exact transfers

/-- The handler and the messages it has been given. -/
def Session.handled (session : Session) : Bool × List Bytes :=
  (session.hasHandler, session.delivered)

@[simp]
theorem start_handled (session : Session) (operation : Operation) :
    (session.start operation).handled = session.handled :=
  rfl

@[simp]
theorem stopNow_handled (session : Session) : (stopNow session).handled = session.handled := by
  rw [stopNow]
  split <;> rfl

@[simp]
theorem fail_handled (session : Session) (operation : String) (error : ErrorCode) :
    (fail session operation error).handled = session.handled := by
  rw [fail, stopNow_handled]
  split <;> rfl

@[simp]
theorem read_handled (session : Session) : (read session).handled = session.handled := by
  rw [read]
  split <;> rfl

@[simp]
theorem write_handled (session : Session) : (write session).handled = session.handled := by
  rw [write]
  split
  · rfl
  · split <;> rfl

/-- The handler is called with what a read returns, and in no other callback. -/
theorem callback_handled (session : Session) (completion : Completion) :
    (callback session completion).handled =
      (session.hasHandler,
        session.delivered ++
          if session.hasHandler then readBy session (.completion completion) else []) := by
  have unchanged : session.handled = (session.hasHandler, session.delivered) := rfl
  cases completion with
  | resolve error =>
      cases error <;> by_cases connecting : session.state = .connecting <;>
        simp [callback, onResolve, connecting, readBy, unchanged]
  | connect error serverNameSet =>
      cases error <;> cases serverNameSet <;>
        by_cases connecting : session.state = .connecting <;>
          simp [callback, onConnect, connecting, readBy, unchanged]
      rfl
  | tlsHandshake error =>
      cases error <;> by_cases connecting : session.state = .connecting <;>
        simp [callback, onTlsHandshake, connecting, readBy, unchanged]
  | handshake error =>
      cases error <;> by_cases connecting : session.state = .connecting <;>
        simp [callback, onHandshake, connecting, readBy, unchanged]
      rfl
  | read result =>
      by_cases connected : session.state = .connected
      · cases result with
        | error error => cases error <;> simp [callback, onRead, connected, readBy, unchanged]
        | ok message =>
            by_cases hasHandler : session.hasHandler = true
            · simp [callback, onRead, connected, readBy, hasHandler]
              rfl
            · simp [callback, onRead, connected, hasHandler, unchanged]
      · cases result <;> simp [callback, onRead, connected, readBy, unchanged]
  | write element message error =>
      by_cases stopped : session.state = .stopped
      · simp [callback, onWrite, stopped, readBy, unchanged]
      · cases error <;> simp [callback, onWrite, stopped, readBy] <;> rfl

theorem step_handled {session next : Session} {event : Event}
    (stepped : step session event = some next) :
    next.handled =
      (session.hasHandler,
        session.delivered ++ if session.hasHandler then readBy session event else []) := by
  have unchanged : session.handled = (session.hasHandler, session.delivered) := rfl
  cases event with
  | start =>
      obtain rfl : onStart session = next := by simpa [step] using stepped
      by_cases idle : session.state = .idle <;> simp [onStart, idle, readBy, unchanged]
      rfl
  | send message =>
      obtain rfl : onSend session message = next := by simpa [step] using stepped
      by_cases stopped : session.state = .stopped <;> simp [onSend, stopped, readBy, unchanged]
      rfl
  | stop =>
      obtain rfl : stopNow session = next := by simpa [step] using stepped
      simp [readBy, unchanged]
  | completion completion =>
      obtain ⟨_, rfl⟩ := step_completion_eq_some_iff.mp stepped
      exact callback_handled (session.finish completion.operation) completion

/-- Nothing leaves `Stopped`, starts an operation there or calls the handler. -/
theorem step_stopped {session next : Session} {event : Event}
    (stopped : session.state = .stopped) (stepped : step session event = some next) :
    next.state = .stopped ∧ next.started = session.started ∧
      next.delivered = session.delivered := by
  cases event with
  | start =>
      obtain rfl : onStart session = next := by simpa [step] using stepped
      simp [onStart, stopped]
  | send message =>
      obtain rfl : onSend session message = next := by simpa [step] using stepped
      simp [onSend, stopped]
  | stop =>
      obtain rfl : stopNow session = next := by simpa [step] using stepped
      simp [stopNow, stopped]
  | completion completion =>
      obtain ⟨_, rfl⟩ := step_completion_eq_some_iff.mp stepped
      have finished : (session.finish completion.operation).state = .stopped := stopped
      rw [callback_stopped finished]
      exact ⟨stopped, rfl, rfl⟩

theorem run_stopped {session final : Session} {events : List Event}
    (run : runFrom step session events = some final) (stopped : session.state = .stopped) :
    final.state = .stopped ∧ final.started = session.started ∧
      final.delivered = session.delivered := by
  have preserved : ∀ {state next : Session} {event : Event},
      (state.state = .stopped ∧ state.started = session.started ∧
        state.delivered = session.delivered) →
        step state event = some next →
          next.state = .stopped ∧ next.started = session.started ∧
            next.delivered = session.delivered := by
    rintro state next event ⟨isStopped, startedEq, deliveredEq⟩ stepped
    rw [← startedEq, ← deliveredEq]
    exact step_stopped isStopped stepped
  exact invariant_of_run preserved run ⟨stopped, rfl, rfl⟩

theorem run_delivered {host port target : Bytes} {hasHandler : Bool} {events : List Event}
    {session : Session}
    (run : runFrom step (newSession host port target hasHandler) events = some session) :
    session.delivered =
      if hasHandler then
        readWhileConnected (trace step (newSession host port target hasHandler) events)
      else [] := by
  have handled : session.handled =
      (hasHandler,
        if hasHandler then
          readWhileConnected (trace step (newSession host port target hasHandler) events)
        else []) := by
    refine invariant_of_trace
      (fun past session =>
        session.handled = (hasHandler, if hasHandler then readWhileConnected past else [])) ?_
      run ?_
    · intro past session next event before stepped
      have hasHandlerEq : session.hasHandler = hasHandler := congrArg Prod.fst before
      have deliveredEq := congrArg Prod.snd before
      dsimp only [Session.handled] at deliveredEq
      rw [step_handled stepped, hasHandlerEq, deliveredEq]
      cases hasHandler <;> simp [readWhileConnected]
    · cases hasHandler <;> rfl
  exact congrArg Prod.snd handled

/-- At most one operation of each kind is outstanding, the stages are started
in order and once at most, and reads and writes only on a connected session.
After a stop no operation is started and the handler is not called, and it is
given exactly what has been read while connected. -/
theorem operations_ordered {host port target : Bytes} {hasHandler : Bool}
    {events : List Event} {session : Session}
    (run : runFrom step (newSession host port target hasHandler) events = some session) :
    AtMostOneEach session.outstanding ∧ session.stagesStarted <+: stages ∧
      (∀ entry ∈ session.started, entry.2.kind ≠ .stage → entry.1 = .connected) ∧
      (stopNow session).state = .stopped ∧
      (session.state = .stopped → ∀ later final,
        runFrom step session later = some final →
          final.state = .stopped ∧ final.started = session.started ∧
            final.delivered = session.delivered) ∧
      session.delivered =
        if hasHandler then
          readWhileConnected (trace step (newSession host port target hasHandler) events)
        else [] := by
  have stoppable := (run_consistent run).stoppable
  refine ⟨stoppable.limited, stoppable.stages_prefix, ?_, stopNow_state session, ?_,
    run_delivered run⟩
  · have initially : TransfersConnected (newSession host port target hasHandler) := by
      intro entry member
      cases member
    exact invariant_of_run TransfersConnected.step run initially
  · intro stopped later final continued
    exact run_stopped continued stopped

/-- Stopped while it resolves, a session never gets further. -/
theorem stopped_while_resolving_ordered :
    ∃ events session,
      runFrom step (newSession [104] [52] [47] true) events = some session ∧
        session.outstanding = [.resolve] ∧
          ∀ later final, runFrom step session later = some final →
            final.started = [(.connecting, .resolve)] := by
  have run : runFrom step (newSession [104] [52] [47] true) [.start, .stop] =
      some (stopNow (onStart (newSession [104] [52] [47] true))) := rfl
  refine ⟨_, _, run, rfl, fun later final continued => ?_⟩
  have ordered := operations_ordered run
  exact (ordered.2.2.2.2.1 rfl later final continued).2.1

end WebSocketSession

end ExchangeConnectivity
