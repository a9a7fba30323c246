import ExchangeConnectivity.WebSocketSessionRuns

/-!
# The buffer of an outstanding write

A write borrows the front message of the queue until its completion runs.  The
queue keeps that message throughout a run exactly when no stop and no failed
read overtakes the write: `stopNow` clears the queue at once.
-/

namespace ExchangeConnectivity

open ActionRuns ByteStrings

namespace WebSocketSession

/-- Every outstanding write finds the element it borrows at the front of the
queue. -/
def Owned (session : Session) : Prop :=
  ∀ element message, .write element message ∈ session.outstanding →
    session.removed = element ∧ session.outgoingMessages.head? = some message

def NoWrite (session : Session) : Prop :=
  ∀ element message, .write element message ∉ session.outstanding

/-- Neither a stop nor a failed read finds a write outstanding on a session
that it stops. -/
def KeepsBuffer (session : Session) : Event → Prop
  | .stop => session.state ≠ .stopped → NoWrite session
  | .completion (.read (.error _)) => session.state = .connected → NoWrite session
  | _ => True

theorem NoWrite.owned {session : Session} (noWrite : NoWrite session) : Owned session :=
  fun element message outstanding => absurd outstanding (noWrite element message)

/-- Until the stop the queue owns what is being written. -/
theorem Consistent.owned {accepted written : List Bytes} {session : Session}
    (consistent : Consistent accepted written session) (running : session.state ≠ .stopped) :
    Owned session := by
  intro element message outstanding
  cases consistent with
  | idle _ _ outstandingEq => simp [outstandingEq] at outstanding
  | connecting _ _ stage isStage outstandingEq =>
      rw [outstandingEq, List.mem_singleton] at outstanding
      simp [← outstanding, Operation.kind] at isStage
  | waiting _ _ outstandingEq => simp [outstandingEq] at outstanding
  | writing _ _ front rest outstandingEq _ _ _ queueEq =>
      have same : element = session.removed ∧ message = front := by
        rcases outstandingEq with outstandingEq | outstandingEq <;>
          simpa [outstandingEq] using outstanding
      obtain ⟨rfl, rfl⟩ := same
      exact ⟨rfl, by rw [queueEq, List.head?_cons]⟩
  | stopped stateEq => exact absurd stateEq running

/-- After the stop it owns nothing. -/
theorem Consistent.owned_iff_noWrite {accepted written : List Bytes} {session : Session}
    (consistent : Consistent accepted written session) (stopped : session.state = .stopped) :
    Owned session ↔ NoWrite session := by
  refine ⟨fun owned element message outstanding => ?_, NoWrite.owned⟩
  cases consistent with
  | idle stateEq => simp [stateEq] at stopped
  | connecting stateEq => simp [stateEq] at stopped
  | waiting stateEq => simp [stateEq] at stopped
  | writing stateEq => simp [stateEq] at stopped
  | stopped _ _ _ _ queueEq => simpa [queueEq] using (owned element message outstanding).2

@[simp]
theorem stopNow_outstanding (session : Session) :
    (stopNow session).outstanding = session.outstanding := by
  rw [stopNow]
  split <;> rfl

@[simp]
theorem fail_outstanding (session : Session) (operation : String) (error : ErrorCode) :
    (fail session operation error).outstanding = session.outstanding := by
  rw [fail, stopNow_outstanding]
  split <;> rfl

@[simp]
theorem write_state (session : Session) : (write session).state = session.state := by
  rw [write]
  split
  · rfl
  · split <;> rfl

@[simp]
theorem read_state (session : Session) : (read session).state = session.state := by
  rw [read]
  split <;> rfl

@[simp]
theorem start_state (session : Session) (operation : Operation) :
    (session.start operation).state = session.state :=
  rfl

/-- A completion that stops the session has reported an error, or the server
name could not be set; it starts nothing. -/
theorem callback_outstanding_of_stops {session : Session} {completion : Completion}
    (stops : (callback session completion).state = .stopped)
    (running : session.state ≠ .stopped) :
    (callback session completion).outstanding = session.outstanding ∧
      ∀ message, completion ≠ .read (.ok message) := by
  cases completion with
  | resolve error =>
      cases error <;> by_cases connecting : session.state = .connecting <;>
        simp [callback, onResolve, connecting, running] at stops ⊢
  | connect error serverNameSet =>
      cases error <;> cases serverNameSet <;>
        by_cases connecting : session.state = .connecting <;>
          simp [callback, onConnect, connecting, running] at stops ⊢
  | tlsHandshake error =>
      cases error <;> by_cases connecting : session.state = .connecting <;>
        simp [callback, onTlsHandshake, connecting, running] at stops ⊢
  | handshake error =>
      cases error <;> by_cases connecting : session.state = .connecting <;>
        simp [callback, onHandshake, connecting, running] at stops ⊢
  | read result =>
      by_cases connected : session.state = .connected
      · cases result with
        | error error => cases error <;> simp [callback, onRead, connected]
        | ok message =>
            by_cases hasHandler : session.hasHandler = true <;>
              simp [callback, onRead, connected, hasHandler] at stops
      · simp [callback, onRead, connected, running] at stops
  | write element message error =>
      cases error <;> simp [callback, onWrite, running] at stops ⊢

/-- A step that does not stop the session meets the condition. -/
theorem keepsBuffer_of_running {session next : Session} {event : Event}
    (stepped : step session event = some next) (running : next.state ≠ .stopped) :
    KeepsBuffer session event := by
  cases event with
  | start => trivial
  | send => trivial
  | stop =>
      obtain rfl : stopNow session = next := by simpa [step] using stepped
      exact absurd (stopNow_state session) running
  | completion completion =>
      cases completion with
      | read result =>
          cases result with
          | ok => trivial
          | error error =>
              intro connected
              obtain ⟨_, rfl⟩ := step_completion_eq_some_iff.mp stepped
              cases error <;>
                simp [callback, onRead, Session.finish, connected, fail] at running
      | resolve | connect | tlsHandshake | handshake | write => trivial

theorem noWrite_finish_iff {session : Session} {operation : Operation}
    (notWrite : operation.kind ≠ .write) :
    NoWrite (session.finish operation) ↔ NoWrite session := by
  refine forall₂_congr fun element message => not_congr ?_
  refine List.mem_erase_of_ne fun same => notWrite ?_
  rw [← same]
  rfl

/-- After a stop nothing more can go wrong. -/
theorem decided_of_stopped {accepted written : List Bytes} {session next : Session}
    {event : Event} (consistent : Consistent accepted written session) (owned : Owned session)
    (stopped : session.state = .stopped) (stepped : step session event = some next) :
    KeepsBuffer session event ∧ Owned next := by
  have noWrite := (consistent.owned_iff_noWrite stopped).mp owned
  cases event with
  | start =>
      obtain rfl : onStart session = next := by simpa [step] using stepped
      exact ⟨trivial, by simpa [onStart, stopped] using owned⟩
  | send message =>
      obtain rfl : onSend session message = next := by simpa [step] using stepped
      exact ⟨trivial, by simpa [onSend, stopped] using owned⟩
  | stop =>
      obtain rfl : stopNow session = next := by simpa [step] using stepped
      exact ⟨fun _ => noWrite, by simpa [stopNow, stopped] using owned⟩
  | completion completion =>
      obtain ⟨_, rfl⟩ := step_completion_eq_some_iff.mp stepped
      have finished : (session.finish completion.operation).state = .stopped := stopped
      rw [callback_stopped finished]
      constructor
      · cases completion with
        | read result =>
            cases result with
            | ok => trivial
            | error => exact fun _ => noWrite
        | resolve | connect | tlsHandshake | handshake | write => trivial
      · refine NoWrite.owned fun element message outstanding => ?_
        exact noWrite element message (List.mem_of_mem_erase outstanding)

/-- Only an error of the read can stop the session during a write; an error of
the write itself finds its buffer no longer needed. -/
theorem decided_of_stops {accepted written : List Bytes} {session : Session}
    (consistent : Consistent accepted written session) (running : session.state ≠ .stopped)
    {completion : Completion} (outstanding : completion.operation ∈ session.outstanding)
    (stops : (callback (session.finish completion.operation) completion).state = .stopped) :
    KeepsBuffer session (.completion completion) ↔
      NoWrite (session.finish completion.operation) := by
  have notOk := (callback_outstanding_of_stops stops running).2
  cases consistent with
  | idle _ _ outstandingEq => simp [outstandingEq] at outstanding
  | connecting stateEq _ stage isStage outstandingEq =>
      rw [outstandingEq, List.mem_singleton] at outstanding
      subst outstanding
      have noWrite : NoWrite (session.finish completion.operation) := by
        simp [NoWrite, Session.finish, outstandingEq]
      refine iff_of_true ?_ noWrite
      cases completion with
      | read => simp [Completion.operation, Operation.kind] at isStage
      | resolve | connect | tlsHandshake | handshake | write => trivial
  | waiting stateEq _ outstandingEq =>
      rw [outstandingEq, List.mem_singleton] at outstanding
      have noWrite : NoWrite session := by simp [NoWrite, outstandingEq]
      have finished : NoWrite (session.finish completion.operation) := by
        rwa [noWrite_finish_iff (by simp [outstanding, Operation.kind])]
      refine iff_of_true ?_ finished
      cases completion with
      | read result =>
          cases result with
          | ok => trivial
          | error => exact fun _ => noWrite
      | resolve | connect | tlsHandshake | handshake | write => trivial
  | writing stateEq _ message rest outstandingEq =>
      cases completion with
      | resolve | connect | tlsHandshake | handshake =>
          rcases outstandingEq with outstandingEq | outstandingEq <;>
            simp [outstandingEq, Completion.operation] at outstanding
      | read result =>
          cases result with
          | ok message => exact absurd rfl (notOk message)
          | error error =>
              rw [noWrite_finish_iff (by simp [Completion.operation, Operation.kind])]
              exact ⟨fun keeps => keeps stateEq, fun noWrite _ => noWrite⟩
      | write element written error =>
          refine iff_of_true trivial ?_
          rcases outstandingEq with outstandingEq | outstandingEq <;>
            simp [outstandingEq, Completion.operation] at outstanding <;>
              simp [NoWrite, Session.finish, Completion.operation, outstandingEq, outstanding]
  | stopped stateEq => exact absurd stateEq running

theorem keepsBuffer_iff_owned {accepted written : List Bytes} {session next : Session}
    {event : Event} (consistent : Consistent accepted written session) (owned : Owned session)
    (stepped : step session event = some next) :
    KeepsBuffer session event ↔ Owned next := by
  by_cases stopped : session.state = .stopped
  · obtain ⟨keeps, nextOwned⟩ := decided_of_stopped consistent owned stopped stepped
    exact iff_of_true keeps nextOwned
  have nextConsistent := step_consistent consistent stepped
  by_cases nextStopped : next.state = .stopped
  · rw [nextConsistent.owned_iff_noWrite nextStopped]
    cases event with
    | start =>
        obtain rfl : onStart session = next := by simpa [step] using stepped
        by_cases idle : session.state = .idle <;> simp [onStart, idle, stopped] at nextStopped
    | send message =>
        obtain rfl : onSend session message = next := by simpa [step] using stepped
        simp [onSend, stopped] at nextStopped
    | stop =>
        obtain rfl : stopNow session = next := by simpa [step] using stepped
        simp [KeepsBuffer, stopped, NoWrite]
    | completion completion =>
        obtain ⟨outstanding, rfl⟩ := step_completion_eq_some_iff.mp stepped
        rw [decided_of_stops consistent stopped outstanding nextStopped, NoWrite, NoWrite,
          (callback_outstanding_of_stops nextStopped stopped).1]
  · exact iff_of_true (keepsBuffer_of_running stepped nextStopped)
      (nextConsistent.owned nextStopped)

/-- A session whose writes have kept their buffers so far. -/
def SafeSoFar (session : Session) : Prop :=
  Owned session ∧ ∃ accepted written, Consistent accepted written session

/-- In every state of a run the queue owns the message being written exactly
when at every step of the run no stop or failed read overtakes a write. -/
theorem buffer_owned_throughout_iff (host port target : Bytes) (hasHandler : Bool)
    (events : List Event) :
    EveryState step Owned (newSession host port target hasHandler) events ↔
      EveryStep step KeepsBuffer (newSession host port target hasHandler) events := by
  have owned : Owned (newSession host port target hasHandler) :=
    NoWrite.owned fun element message => List.not_mem_nil
  have initially : SafeSoFar (newSession host port target hasHandler) :=
    ⟨owned, [], [], .idle rfl rfl rfl rfl rfl rfl rfl⟩
  refine everyState_iff_everyStep ?_ ?_ events initially owned
  · rintro session next event ⟨owned, accepted, written, consistent⟩ stepped
    exact keepsBuffer_iff_owned consistent owned stepped
  · rintro session next event ⟨owned, accepted, written, consistent⟩ stepped keeps
    exact ⟨(keepsBuffer_iff_owned consistent owned stepped).mp keeps, _, _,
      step_consistent consistent stepped⟩

/-- A stop during a write leaves the write with a message the queue no longer
holds. -/
theorem stop_during_write_clears_buffer :
    ∃ session,
      runFrom step (newSession [104] [52] [47] true)
          [.start, .completion (.resolve none), .completion (.connect none true),
            .completion (.tlsHandshake none), .completion (.handshake none), .send [49],
            .stop] = some session ∧
        session.outstanding = [.read, .write 0 [49]] ∧ session.outgoingMessages = [] ∧
          ¬ Owned session := by
  refine ⟨_, rfl, rfl, rfl, ?_⟩
  intro owned
  have front := (owned 0 [49] (by decide)).2
  cases front

end WebSocketSession

end ExchangeConnectivity
