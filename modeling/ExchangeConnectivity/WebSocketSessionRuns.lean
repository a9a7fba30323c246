import ExchangeConnectivity.WebSocketSession
import Mathlib.Data.List.Infix

/-!
# The message queue of the WebSocket session

Whatever the order of starts, sends, stops and completions on the strand, the
messages accepted are written in order and none is left behind on a live
connection.
-/

namespace ExchangeConnectivity

open ActionRuns ByteStrings

namespace WebSocketSession

/-- The message a step accepts: that of a `send` run before the stop. -/
def acceptedBy (session : Session) : Event → List Bytes
  | .send message => if session.state = .stopped then [] else [message]
  | _ => []

/-- The message of a write that completes without error. -/
def writtenBy : Event → List Bytes
  | .completion (.write _ message none) => [message]
  | _ => []

/-- The message read without error on a connected session. -/
def readBy (session : Session) : Event → List Bytes
  | .completion (.read (.ok message)) =>
      if session.state = .connected then [message] else []
  | _ => []

def accepted (past : List (Session × Event)) : List Bytes :=
  past.flatMap fun taken => acceptedBy taken.1 taken.2

def written (past : List (Session × Event)) : List Bytes :=
  past.flatMap fun taken => writtenBy taken.2

def readWhileConnected (past : List (Session × Event)) : List Bytes :=
  past.flatMap fun taken => readBy taken.1 taken.2

/-- Operations of which one at most may be outstanding. -/
inductive Kind
  | stage
  | read
  | write
  deriving DecidableEq

def Operation.kind : Operation → Kind
  | .resolve | .connect | .tlsHandshake | .handshake => .stage
  | .read => .read
  | .write _ _ => .write

def Operation.message? : Operation → Option Bytes
  | .write _ message => some message
  | _ => none

/-- The stages of making the connection, in their order. -/
def stages : List Operation :=
  [.resolve, .connect, .tlsHandshake, .handshake]

/-- The stages up to one of them. -/
def stagesThrough : Operation → List Operation
  | .resolve => [.resolve]
  | .connect => [.resolve, .connect]
  | .tlsHandshake => [.resolve, .connect, .tlsHandshake]
  | .handshake => stages
  | .read | .write _ _ => []

def Session.stagesStarted (session : Session) : List Operation :=
  (session.started.map Prod.snd).filter fun operation => operation.kind = .stage

/-- The messages given to `async_write`. -/
def Session.handed (session : Session) : List Bytes :=
  session.started.filterMap fun entry => entry.2.message?

def AtMostOneEach (operations : List Operation) : Prop :=
  ∀ kind, operations.countP (fun operation => operation.kind = kind) ≤ 1

theorem stagesThrough_prefix (operation : Operation) :
    stagesThrough operation <+: stages := by
  cases operation <;> simp [stagesThrough, stages]

theorem stagesStarted_start (session : Session) (operation : Operation) :
    (session.start operation).stagesStarted =
      session.stagesStarted ++ if operation.kind = .stage then [operation] else [] := by
  by_cases isStage : operation.kind = .stage <;>
    simp [Session.stagesStarted, Session.start, isStage]

theorem handed_start (session : Session) (operation : Operation) :
    (session.start operation).handed = session.handed ++ operation.message?.toList := by
  cases operation <;> simp [Session.handed, Session.start, Operation.message?]

theorem AtMostOneEach.erase {operations : List Operation} (limited : AtMostOneEach operations)
    (operation : Operation) : AtMostOneEach (operations.erase operation) :=
  fun kind => Nat.le_trans List.erase_sublist.countP_le (limited kind)

theorem atMostOneEach_singleton (operation : Operation) : AtMostOneEach [operation] := by
  intro kind
  exact List.countP_le_length

theorem atMostOneEach_read_write (element : Nat) (message : Bytes) :
    AtMostOneEach [.read, .write element message] ∧
      AtMostOneEach [.write element message, .read] := by
  constructor <;> intro kind <;> cases kind <;> simp [Operation.kind]

/-- The states of a session that has accepted and written these messages. -/
inductive Consistent (accepted written : List Bytes) (session : Session) : Prop
  | idle (stateEq : session.state = .idle) (notWriting : session.writing = false)
      (outstandingEq : session.outstanding = []) (stagesEq : session.stagesStarted = [])
      (handedEq : session.handed = []) (writtenEq : written = [])
      (queueEq : session.outgoingMessages = accepted)
  | connecting (stateEq : session.state = .connecting) (notWriting : session.writing = false)
      (stage : Operation) (isStage : stage.kind = .stage)
      (outstandingEq : session.outstanding = [stage])
      (stagesEq : session.stagesStarted = stagesThrough stage)
      (handedEq : session.handed = []) (writtenEq : written = [])
      (queueEq : session.outgoingMessages = accepted)
  | waiting (stateEq : session.state = .connected) (notWriting : session.writing = false)
      (outstandingEq : session.outstanding = [.read])
      (stagesEq : session.stagesStarted = stages)
      (handedEq : session.handed = accepted) (writtenEq : written = accepted)
      (queueEq : session.outgoingMessages = [])
  | writing (stateEq : session.state = .connected) (isWriting : session.writing = true)
      (message : Bytes) (rest : List Bytes)
      (outstandingEq : session.outstanding = [.read, .write session.removed message] ∨
        session.outstanding = [.write session.removed message, .read])
      (stagesEq : session.stagesStarted = stages)
      (handedEq : session.handed = written ++ [message])
      (acceptedEq : written ++ message :: rest = accepted)
      (queueEq : session.outgoingMessages = message :: rest)
  | stopped (stateEq : session.state = .stopped)
      (limited : AtMostOneEach session.outstanding)
      (stagesEq : session.stagesStarted <+: stages)
      (handedEq : session.handed <+: accepted)
      (queueEq : session.outgoingMessages = [])

/-- What a stop leaves as it is. -/
structure Stoppable (accepted : List Bytes) (session : Session) : Prop where
  limited : AtMostOneEach session.outstanding
  stages_prefix : session.stagesStarted <+: stages
  handed_prefix : session.handed <+: accepted

theorem Stoppable.finish {accepted : List Bytes} {session : Session}
    (stoppable : Stoppable accepted session) (operation : Operation) :
    Stoppable accepted (session.finish operation) :=
  ⟨stoppable.limited.erase operation, stoppable.stages_prefix, stoppable.handed_prefix⟩

theorem Consistent.stoppable {accepted written : List Bytes} {session : Session}
    (consistent : Consistent accepted written session) : Stoppable accepted session := by
  cases consistent with
  | idle _ _ outstandingEq stagesEq handedEq =>
      refine ⟨?_, stagesEq ▸ List.nil_prefix, handedEq ▸ List.nil_prefix⟩
      rw [outstandingEq]
      exact fun _ => Nat.zero_le 1
  | connecting _ _ stage _ outstandingEq stagesEq handedEq =>
      refine ⟨outstandingEq ▸ atMostOneEach_singleton stage, ?_, handedEq ▸ List.nil_prefix⟩
      rw [stagesEq]
      exact stagesThrough_prefix stage
  | waiting _ _ outstandingEq stagesEq handedEq =>
      refine ⟨outstandingEq ▸ atMostOneEach_singleton .read, ?_, ?_⟩
      · rw [stagesEq]
      · rw [handedEq]
  | writing _ _ message rest outstandingEq stagesEq handedEq acceptedEq =>
      obtain ⟨readFirst, writeFirst⟩ := atMostOneEach_read_write session.removed message
      refine ⟨?_, ?_, ?_⟩
      · rcases outstandingEq with outstandingEq | outstandingEq <;> rw [outstandingEq]
        · exact readFirst
        · exact writeFirst
      · rw [stagesEq]
      · exact ⟨rest, by simp [handedEq, ← acceptedEq]⟩
  | stopped _ limited stagesEq handedEq => exact ⟨limited, stagesEq, handedEq⟩

@[simp]
theorem stopNow_state (session : Session) : (stopNow session).state = .stopped := by
  rw [stopNow]
  split
  next stopped => exact stopped
  · rfl

theorem stopNow_consistent {accepted : List Bytes} (written : List Bytes) {session : Session}
    (stoppable : Stoppable accepted session) (running : session.state ≠ .stopped) :
    Consistent accepted written (stopNow session) := by
  rw [stopNow, if_neg running]
  exact .stopped rfl stoppable.limited stoppable.stages_prefix stoppable.handed_prefix rfl

theorem fail_consistent {accepted : List Bytes} (written : List Bytes) {session : Session}
    (stoppable : Stoppable accepted session) (running : session.state ≠ .stopped)
    (operation : String) (error : ErrorCode) :
    Consistent accepted written (fail session operation error) := by
  rw [fail]
  split
  · exact stopNow_consistent written
      ⟨stoppable.limited, stoppable.stages_prefix, stoppable.handed_prefix⟩ running
  · exact stopNow_consistent written stoppable running

/-- On a connection with no write in progress, `write` sends on the first
message accepted and not yet written. -/
theorem write_consistent {accepted written : List Bytes} {session : Session}
    (stateEq : session.state = .connected) (notWriting : session.writing = false)
    (outstandingEq : session.outstanding = [.read])
    (stagesEq : session.stagesStarted = stages) (handedEq : session.handed = written)
    (queueEq : written ++ session.outgoingMessages = accepted) :
    Consistent accepted written (write session) := by
  rw [write]
  split
  next empty =>
    rw [empty, List.append_nil] at queueEq
    exact .waiting stateEq notWriting outstandingEq stagesEq (handedEq.trans queueEq) queueEq
      empty
  next message rest queued =>
    rw [if_neg (by simp [stateEq, notWriting])]
    refine .writing stateEq rfl message rest (.inl ?_) ?_ ?_ ?_ queued
    · simp [Session.start, outstandingEq]
    · rw [stagesStarted_start, if_neg (by simp [Operation.kind]), List.append_nil]
      exact stagesEq
    · rw [handed_start]
      exact congrArg (· ++ [message]) handedEq
    · rw [← queueEq, queued]

/-- Messages are only queued while the session cannot write. -/
theorem write_eq_self {session : Session}
    (busy : session.state ≠ .connected ∨ session.writing = true) : write session = session := by
  rw [write]
  split
  · rfl
  · rw [if_pos busy]

theorem onStart_consistent {accepted written : List Bytes} {session : Session}
    (consistent : Consistent accepted written session) :
    Consistent accepted written (onStart session) := by
  rw [onStart]
  split
  · exact consistent
  next notIdle =>
    cases consistent with
    | idle _ notWriting outstandingEq stagesEq handedEq writtenEq queueEq =>
        refine .connecting rfl notWriting .resolve rfl ?_ ?_ ?_ writtenEq queueEq
        · simp [Session.start, outstandingEq]
        · rw [stagesStarted_start, if_pos (by rfl)]
          exact congrArg (· ++ [.resolve]) stagesEq
        · rw [handed_start]
          exact congrArg (· ++ []) handedEq
    | connecting stateEq => simp [stateEq] at notIdle
    | waiting stateEq => simp [stateEq] at notIdle
    | writing stateEq => simp [stateEq] at notIdle
    | stopped stateEq => simp [stateEq] at notIdle

theorem onSend_consistent {accepted written : List Bytes} {session : Session}
    (consistent : Consistent accepted written session) (message : Bytes) :
    Consistent (accepted ++ acceptedBy session (.send message)) written
      (onSend session message) := by
  rw [onSend, acceptedBy]
  cases consistent with
  | idle stateEq notWriting outstandingEq stagesEq handedEq writtenEq queueEq =>
      rw [if_neg (by simp [stateEq]), if_neg (by simp [stateEq]),
        write_eq_self (.inl (by simp [stateEq]))]
      exact .idle stateEq notWriting outstandingEq stagesEq handedEq writtenEq (by rw [queueEq])
  | connecting stateEq notWriting stage isStage outstandingEq stagesEq handedEq writtenEq
      queueEq =>
      rw [if_neg (by simp [stateEq]), if_neg (by simp [stateEq]),
        write_eq_self (.inl (by simp [stateEq]))]
      exact .connecting stateEq notWriting stage isStage outstandingEq stagesEq handedEq
        writtenEq (by rw [queueEq])
  | waiting stateEq notWriting outstandingEq stagesEq handedEq writtenEq queueEq =>
      rw [if_neg (by simp [stateEq]), if_neg (by simp [stateEq])]
      refine write_consistent stateEq notWriting outstandingEq stagesEq
        (handedEq.trans writtenEq.symm) ?_
      simp [writtenEq, queueEq]
  | writing stateEq isWriting front rest outstandingEq stagesEq handedEq acceptedEq queueEq =>
      rw [if_neg (by simp [stateEq]), if_neg (by simp [stateEq]), write_eq_self]
      · refine .writing stateEq isWriting front (rest ++ [message]) outstandingEq stagesEq
          handedEq ?_ ?_
        · rw [← acceptedEq, List.append_assoc, List.cons_append]
        · simp [queueEq]
      · exact .inr isWriting
  | stopped stateEq limited stagesEq handedEq queueEq =>
      rw [if_pos stateEq, if_pos stateEq, List.append_nil]
      exact .stopped stateEq limited stagesEq handedEq queueEq

theorem onStop_consistent {accepted written : List Bytes} {session : Session}
    (consistent : Consistent accepted written session) :
    Consistent accepted written (stopNow session) := by
  by_cases stopped : session.state = .stopped
  · rwa [stopNow, if_pos stopped]
  · exact stopNow_consistent written consistent.stoppable stopped

/-- A completion that runs after the stop changes nothing. -/
theorem callback_stopped {session : Session} (stopped : session.state = .stopped)
    (completion : Completion) : callback session completion = session := by
  cases completion <;>
    simp [callback, onResolve, onConnect, onTlsHandshake, onHandshake, onRead, onWrite, stopped]

theorem startStage_consistent {accepted written : List Bytes} {session : Session}
    (stateEq : session.state = .connecting) (notWriting : session.writing = false)
    (outstandingEq : session.outstanding = []) (stage : Operation)
    (isStage : stage.kind = .stage)
    (stagesEq : session.stagesStarted ++ [stage] = stagesThrough stage)
    (handedEq : session.handed = []) (writtenEq : written = [])
    (queueEq : session.outgoingMessages = accepted) :
    Consistent accepted written (session.start stage) := by
  refine .connecting stateEq notWriting stage isStage ?_ ?_ ?_ writtenEq queueEq
  · rw [Session.start, outstandingEq, List.nil_append]
  · rw [stagesStarted_start, if_pos isStage, stagesEq]
  · rw [handed_start, handedEq, List.nil_append]
    cases stage with
    | resolve | connect | tlsHandshake | handshake | read => rfl
    | write => simp [Operation.kind] at isStage

/-- The end of a stage starts the next one, or the session stops. -/
theorem callback_consistent_connecting {accepted written : List Bytes} {session : Session}
    (stateEq : session.state = .connecting) (notWriting : session.writing = false)
    (completion : Completion) (isStage : completion.operation.kind = .stage)
    (outstandingEq : session.outstanding = []) (stoppable : Stoppable accepted session)
    (stagesEq : session.stagesStarted = stagesThrough completion.operation)
    (handedEq : session.handed = []) (writtenEq : written = [])
    (queueEq : session.outgoingMessages = accepted) :
    Consistent accepted written (callback session completion) := by
  have running : session.state ≠ .stopped := by simp [stateEq]
  cases completion with
  | resolve error =>
      rw [callback, onResolve.eq_def, if_neg (by simp [stateEq])]
      cases error with
      | some error => exact fail_consistent written stoppable running _ error
      | none =>
          exact startStage_consistent stateEq notWriting outstandingEq .connect rfl
            (by rw [stagesEq]; rfl) handedEq writtenEq queueEq
  | connect error serverNameSet =>
      rw [callback, onConnect.eq_def, if_neg (by simp [stateEq])]
      cases error with
      | some error => exact fail_consistent written stoppable running _ error
      | none =>
          cases serverNameSet with
          | false =>
              exact stopNow_consistent written
                ⟨stoppable.limited, stoppable.stages_prefix, stoppable.handed_prefix⟩ running
          | true =>
              exact startStage_consistent stateEq notWriting outstandingEq .tlsHandshake rfl
                (by rw [stagesEq]; rfl) handedEq writtenEq queueEq
  | tlsHandshake error =>
      rw [callback, onTlsHandshake.eq_def, if_neg (by simp [stateEq])]
      cases error with
      | some error => exact fail_consistent written stoppable running _ error
      | none =>
          exact startStage_consistent stateEq notWriting outstandingEq .handshake rfl
            (by rw [stagesEq]; rfl) handedEq writtenEq queueEq
  | handshake error =>
      rw [callback, onHandshake.eq_def, if_neg (by simp [stateEq])]
      cases error with
      | some error => exact fail_consistent written stoppable running _ error
      | none =>
          -- Whatever was sent while connecting is written from here on.
          dsimp only
          rw [read, if_neg (by simp)]
          refine write_consistent rfl notWriting ?_ ?_ ?_ ?_
          · simp [Session.start, outstandingEq]
          · rw [stagesStarted_start, if_neg (by simp [Operation.kind]), List.append_nil]
            exact stagesEq
          · rw [handed_start, writtenEq]
            exact congrArg (· ++ []) handedEq
          · rw [writtenEq]
            exact queueEq
  | read => simp [Completion.operation, Operation.kind] at isStage
  | write => simp [Completion.operation, Operation.kind] at isStage

theorem onRead_error_consistent {accepted : List Bytes} (written : List Bytes)
    {session : Session} (stateEq : session.state = .connected)
    (stoppable : Stoppable accepted session) (error : ErrorCode) :
    Consistent accepted written (onRead session (.error error)) := by
  have running : session.state ≠ .stopped := by simp [stateEq]
  rw [onRead.eq_def, if_neg (by simp [stateEq])]
  cases error with
  | closed => exact stopNow_consistent written stoppable running
  | operationAborted => exact fail_consistent written stoppable running _ _
  | other => exact fail_consistent written stoppable running _ _

theorem read_consistent_waiting {accepted written : List Bytes} {session : Session}
    (stateEq : session.state = .connected) (notWriting : session.writing = false)
    (outstandingEq : session.outstanding = []) (stagesEq : session.stagesStarted = stages)
    (handedEq : session.handed = accepted) (writtenEq : written = accepted)
    (queueEq : session.outgoingMessages = []) :
    Consistent accepted written (read session) := by
  rw [read, if_neg (by simp [stateEq])]
  refine .waiting stateEq notWriting ?_ ?_ ?_ writtenEq queueEq
  · rw [Session.start, outstandingEq, List.nil_append]
  · rw [stagesStarted_start, if_neg (by simp [Operation.kind]), List.append_nil, stagesEq]
  · rw [handed_start, handedEq]
    exact List.append_nil accepted

theorem read_consistent_writing {accepted written : List Bytes} {session : Session}
    (stateEq : session.state = .connected) (isWriting : session.writing = true)
    (message : Bytes) (rest : List Bytes)
    (outstandingEq : session.outstanding = [.write session.removed message])
    (stagesEq : session.stagesStarted = stages) (handedEq : session.handed = written ++ [message])
    (acceptedEq : written ++ message :: rest = accepted)
    (queueEq : session.outgoingMessages = message :: rest) :
    Consistent accepted written (read session) := by
  rw [read, if_neg (by simp [stateEq])]
  refine .writing stateEq isWriting message rest (.inr ?_) ?_ ?_ acceptedEq queueEq
  · rw [Session.start, outstandingEq, List.singleton_append]
  · rw [stagesStarted_start, if_neg (by simp [Operation.kind]), List.append_nil, stagesEq]
  · rw [handed_start, handedEq]
    exact List.append_nil (written ++ [message])

theorem onWrite_consistent {accepted written : List Bytes} {session : Session}
    (stateEq : session.state = .connected) (message : Bytes) (rest : List Bytes)
    (outstandingEq : session.outstanding = [.read])
    (stoppable : Stoppable accepted session) (stagesEq : session.stagesStarted = stages)
    (handedEq : session.handed = written ++ [message])
    (acceptedEq : written ++ message :: rest = accepted)
    (queueEq : session.outgoingMessages = message :: rest)
    (element : Nat) (error : Option ErrorCode) :
    Consistent accepted (written ++ writtenBy (.completion (.write element message error)))
      (onWrite session error) := by
  have running : session.state ≠ .stopped := by simp [stateEq]
  rw [onWrite.eq_def, if_neg running]
  cases error with
  | some error =>
      apply fail_consistent
      · exact ⟨stoppable.limited, stoppable.stages_prefix, stoppable.handed_prefix⟩
      · exact running
  | none =>
      dsimp only
      refine write_consistent stateEq rfl outstandingEq stagesEq handedEq ?_
      simp only [queueEq, List.tail_cons]
      rw [← acceptedEq, List.append_assoc, writtenBy, List.singleton_append]

theorem completion_consistent {accepted written : List Bytes} {session : Session}
    (consistent : Consistent accepted written session) (completion : Completion)
    (outstanding : completion.operation ∈ session.outstanding) :
    Consistent accepted (written ++ writtenBy (.completion completion))
      (callback (session.finish completion.operation) completion) := by
  have stoppable := consistent.stoppable.finish completion.operation
  have finishedState : (session.finish completion.operation).state = session.state := rfl
  cases consistent with
  | idle _ _ outstandingEq => simp [outstandingEq] at outstanding
  | connecting stateEq notWriting stage isStage outstandingEq stagesEq handedEq writtenEq
      queueEq =>
      rw [outstandingEq, List.mem_singleton] at outstanding
      subst outstanding
      have unwritten : writtenBy (.completion completion) = [] := by
        cases completion with
        | write => simp [Completion.operation, Operation.kind] at isStage
        | resolve | connect | tlsHandshake | handshake | read => rfl
      rw [unwritten, List.append_nil]
      refine callback_consistent_connecting (finishedState.trans stateEq) notWriting completion
        isStage ?_ stoppable stagesEq handedEq writtenEq queueEq
      simp [Session.finish, outstandingEq]
  | waiting stateEq notWriting outstandingEq stagesEq handedEq writtenEq queueEq =>
      rw [outstandingEq, List.mem_singleton] at outstanding
      cases completion with
      | resolve | connect | tlsHandshake | handshake | write =>
          simp [Completion.operation] at outstanding
      | read result =>
          simp only [callback, writtenBy, List.append_nil]
          cases result with
          | error error =>
              exact onRead_error_consistent written (finishedState.trans stateEq) stoppable error
          | ok message =>
              have removed : session.outstanding.erase .read = [] := by simp [outstandingEq]
              rw [onRead.eq_def, if_neg (by simp [Session.finish, stateEq])]
              dsimp only
              split <;>
                exact read_consistent_waiting stateEq notWriting removed stagesEq handedEq
                  writtenEq queueEq
  | writing stateEq isWriting message rest outstandingEq stagesEq handedEq acceptedEq queueEq =>
      cases completion with
      | resolve | connect | tlsHandshake | handshake =>
          rcases outstandingEq with outstandingEq | outstandingEq <;>
            simp [outstandingEq, Completion.operation] at outstanding
      | read result =>
          simp only [callback, writtenBy, List.append_nil]
          cases result with
          | error error =>
              exact onRead_error_consistent written (finishedState.trans stateEq) stoppable error
          | ok delivered =>
              have removed : session.outstanding.erase .read =
                  [.write session.removed message] := by
                rcases outstandingEq with outstandingEq | outstandingEq <;>
                  simp [outstandingEq]
              rw [onRead.eq_def, if_neg (by simp [Session.finish, stateEq])]
              dsimp only
              split <;>
                exact read_consistent_writing stateEq isWriting message rest removed stagesEq
                  handedEq acceptedEq queueEq
      | write element message' error =>
          have same : element = session.removed ∧ message' = message := by
            rcases outstandingEq with outstandingEq | outstandingEq <;>
              simpa [outstandingEq, Completion.operation] using outstanding
          obtain ⟨rfl, rfl⟩ := same
          refine onWrite_consistent (finishedState.trans stateEq) message' rest ?_ stoppable
            stagesEq handedEq acceptedEq queueEq session.removed error
          rcases outstandingEq with outstandingEq | outstandingEq <;>
            simp [Session.finish, Completion.operation, outstandingEq]
  | stopped stateEq limited stagesEq handedEq queueEq =>
      rw [callback_stopped (finishedState.trans stateEq)]
      exact .stopped stateEq stoppable.limited stagesEq handedEq queueEq

theorem step_consistent {accepted written : List Bytes} {session next : Session} {event : Event}
    (consistent : Consistent accepted written session) (stepped : step session event = some next) :
    Consistent (accepted ++ acceptedBy session event) (written ++ writtenBy event) next := by
  cases event with
  | start =>
      obtain rfl : onStart session = next := by simpa [step] using stepped
      simpa [acceptedBy, writtenBy] using onStart_consistent consistent
  | send message =>
      obtain rfl : onSend session message = next := by simpa [step] using stepped
      simpa only [writtenBy, List.append_nil] using onSend_consistent consistent message
  | stop =>
      obtain rfl : stopNow session = next := by simpa [step] using stepped
      simpa [acceptedBy, writtenBy] using onStop_consistent consistent
  | completion completion =>
      obtain ⟨outstanding, rfl⟩ := step_completion_eq_some_iff.mp stepped
      rw [acceptedBy, List.append_nil]
      · exact completion_consistent consistent completion outstanding
      · simp

theorem run_consistent {host port target : Bytes} {hasHandler : Bool} {events : List Event}
    {session : Session}
    (run : runFrom step (newSession host port target hasHandler) events = some session) :
    Consistent (accepted (trace step (newSession host port target hasHandler) events))
      (written (trace step (newSession host port target hasHandler) events)) session := by
  refine invariant_of_trace
    (fun past session => Consistent (accepted past) (written past) session) ?_ run
    (.idle rfl rfl rfl rfl rfl rfl rfl)
  intro past session next event consistent stepped
  simpa [accepted, written] using step_consistent consistent stepped

/-- Messages are given to `async_write` in the order in which they were
accepted; until the stop none is lost, and on a connected session one is being
written as long as any is queued. -/
theorem messages_written_in_order {host port target : Bytes} {hasHandler : Bool}
    {events : List Event} {session : Session}
    (run : runFrom step (newSession host port target hasHandler) events = some session) :
    let past := trace step (newSession host port target hasHandler) events
    session.handed <+: accepted past ∧
      (session.state ≠ .stopped →
        written past ++ session.outgoingMessages = accepted past) ∧
      (session.state = .connected → session.outgoingMessages ≠ [] →
        ∃ element message, .write element message ∈ session.outstanding) := by
  intro past
  have consistent := run_consistent run
  refine ⟨consistent.stoppable.handed_prefix, fun running => ?_, fun connected queued => ?_⟩
  · cases consistent with
    | idle _ _ _ _ _ writtenEq queueEq => rw [writtenEq, queueEq, List.nil_append]
    | connecting _ _ _ _ _ _ _ writtenEq queueEq => rw [writtenEq, queueEq, List.nil_append]
    | waiting _ _ _ _ _ writtenEq queueEq => rw [writtenEq, queueEq, List.append_nil]
    | writing _ _ _ _ _ _ _ acceptedEq queueEq => rw [queueEq, acceptedEq]
    | stopped stateEq => exact absurd stateEq running
  · cases consistent with
    | idle stateEq => simp [stateEq] at connected
    | connecting stateEq => simp [stateEq] at connected
    | waiting _ _ _ _ _ _ queueEq => exact absurd queueEq queued
    | writing _ _ message _ outstandingEq =>
        refine ⟨session.removed, message, ?_⟩
        rcases outstandingEq with outstandingEq | outstandingEq <;> simp [outstandingEq]
    | stopped stateEq => simp [stateEq] at connected

/-- Of two messages, one sent before the session is started and one while it
connects, the first is being written. -/
theorem early_messages_written_in_order :
    ∃ events session,
      runFrom step (newSession [104] [52] [47] true) events = some session ∧
        accepted (trace step (newSession [104] [52] [47] true) events) = [[49], [50]] ∧
          session.handed = [[49]] ∧
            session.handed <+:
              accepted (trace step (newSession [104] [52] [47] true) events) :=
  ⟨[.send [49], .start, .completion (.resolve none), .send [50],
      .completion (.connect none true), .completion (.tlsHandshake none),
      .completion (.handshake none)],
    _, rfl, rfl, rfl, (messages_written_in_order rfl).1⟩

end WebSocketSession

end ExchangeConnectivity
