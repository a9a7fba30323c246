import ExchangeConnectivity.WebSocketClose

/-!
# Messages of a client that is connected again

A client may be connected anew once nothing of its last connection is under
way.  Over any number of connections its messages are written in the order in
which they were sent: one whose write fails stays at the head of the queue and
is the next to be written, and none is written again after it has succeeded.
As a write leaves `Connected` for good, each connection carries at most one.
-/

namespace ExchangeConnectivity

open ActionRuns ByteStrings

namespace BinanceWebSocketClient

/-- Whether the write that the action completes has succeeded. -/
def Action.written : Action → Option Bool
  | .completion (.write error) => some error.isNone
  | _ => none

def Action.messageRead : Action → Option Bytes
  | .completion (.read (.ok message)) => some message
  | _ => none

/-- The action opens a connection. -/
def Action.opens : Action → Bool
  | .completion (.webSocketHandshake none) => true
  | _ => false

/-- A client is not connected again before its operations have completed. -/
def ReconnectsIdle (connection : Connection) : Action → Prop
  | .connect _ _ _ => connection.client.outstanding = []
  | _ => True

instance (connection : Connection) : DecidablePred (ReconnectsIdle connection)
  | .connect _ _ _ => inferInstanceAs (Decidable (connection.client.outstanding = []))
  | .send _ | .close _ | .completion _ => inferInstanceAs (Decidable True)

/-- The messages whose write has succeeded. -/
def succeeded (attempted : List Bytes) (results : List Bool) : List Bytes :=
  ((attempted.zip results).filter Prod.snd).map Prod.fst

theorem succeeded_concat {attempted : List Bytes} {results : List Bool}
    (lengthEq : attempted.length = results.length) (message : Bytes) (success : Bool) :
    succeeded (attempted ++ [message]) (results ++ [success]) =
      succeeded attempted results ++ if success then [message] else [] := by
  rw [succeeded, List.zip_append lengthEq, List.filter_append, List.map_append]
  cases success <;> rfl

/-- The operations under way, and the message being written: the front of the
queue. -/
inductive Course (client : Client) : List Bytes → Prop
  | resting (outstandingEq : client.outstanding = []) (stateEq : client.state = .disconnected) :
      Course client []
  | connecting (stage : Operation) (isStage : stage.IsStage)
      (outstandingEq : client.outstanding = [stage]) (stateEq : client.state = .disconnected) :
      Course client []
  | reading (outstandingEq : client.outstanding = [.read])
      (stateEq : client.state = .connected ∨ client.state = .disconnected) : Course client []
  | writing (message : Bytes) (rest : List Bytes)
      (outstandingEq : client.outstanding = [.read, .write] ∨
        client.outstanding = [.write, .read])
      (stateEq : client.state = .writing) (queueEq : client.writeQueue = message :: rest) :
      Course client [message]
  | ending (message : Bytes) (rest : List Bytes) (outstandingEq : client.outstanding = [.write])
      (stateEq : client.state = .disconnected) (queueEq : client.writeQueue = message :: rest) :
      Course client [message]

/-- The client after writes with these results, successful reads of these
messages, and so many connections. -/
structure Orderly (results : List Bool) (reads : List Bytes) (opened : Nat) (client : Client) :
    Prop where
  attempts : ∃ attempted underWay, Course client underWay ∧
    client.handed = attempted ++ underWay ∧ attempted.length = results.length ∧
      succeeded attempted results ++ client.writeQueue = client.sent
  received_eq : client.received = if client.hasMessageHandler then reads else []
  handed_le : client.handed.length + (if client.state = .connected then 1 else 0) ≤ opened

/-- No two operations of a kind overlap, and a stage overlaps with nothing. -/
theorem Course.operations {client : Client} {underWay : List Bytes}
    (course : Course client underWay) :
    client.outstanding.Nodup ∧
      (∀ stage ∈ client.outstanding, stage.IsStage → client.outstanding = [stage]) ∧
        underWay <+: client.writeQueue ∧
          underWay.length = client.outstanding.count .write := by
  cases course with
  | resting outstandingEq => simp [outstandingEq]
  | connecting stage isStage outstandingEq =>
      have notWrite : stage ≠ .write := by
        rintro rfl
        exact isStage.elim
      simp [outstandingEq, notWrite]
  | reading outstandingEq => simp [outstandingEq]
  | writing message rest outstandingEq _ queueEq =>
      rcases outstandingEq with outstandingEq | outstandingEq <;>
        simp [outstandingEq, queueEq, Operation.IsStage]
  | ending message rest outstandingEq _ queueEq => simp [outstandingEq, queueEq]

section Steps

variable {results : List Bool} {reads : List Bytes} {opened : Nat} {client : Client}

theorem fail_eq (client : Client) (error : ErrorCode) :
    ∃ reported, fail client error = { client with reported, failed := true } := by
  rw [fail, reportError]
  split
  · exact ⟨_, rfl⟩
  · exact ⟨client.reported, rfl⟩

theorem onClose_eq (client : Client) (error : ErrorCode) :
    ∃ reported, onClose client error = { client with state := .disconnected, reported } := by
  rw [onClose]
  split
  · rw [reportError]
    split
    · exact ⟨_, rfl⟩
    · exact ⟨client.reported, rfl⟩
  · exact ⟨client.reported, rfl⟩

theorem write_eq_of_cons (connected : client.state = .connected) {message : Bytes}
    {rest : List Bytes} (queueEq : client.writeQueue = message :: rest) :
    write client =
      { client with
        state := .writing
        handed := client.handed ++ [message]
        outstanding := client.outstanding ++ [.write] } := by
  simp [write, queueEq, connected, Client.start]

theorem Orderly.connect (orderly : Orderly results reads opened client)
    (idle : client.outstanding = []) (host port target : Bytes) :
    Orderly results reads opened (connect client host port target) := by
  obtain ⟨⟨attempted, underWay, course, handedEq, lengthEq, sentEq⟩, receivedEq, handedLe⟩ :=
    orderly
  cases course with
  | resting outstandingEq stateEq =>
      refine ⟨⟨attempted, [], ?_, handedEq, lengthEq, sentEq⟩, receivedEq, handedLe⟩
      refine .connecting .resolve trivial ?_ stateEq
      simp [BinanceWebSocketClient.connect, Client.start, idle]
  | connecting stage _ outstandingEq => simp [outstandingEq] at idle
  | reading outstandingEq => simp [outstandingEq] at idle
  | writing _ _ outstandingEq =>
      rcases outstandingEq with outstandingEq | outstandingEq <;> simp [outstandingEq] at idle
  | ending _ _ outstandingEq => simp [outstandingEq] at idle

/-- A message that is only queued leaves everything else as it is. -/
theorem Course.queue {underWay : List Bytes} (course : Course client underWay)
    (message : Bytes) :
    Course
      { client with
        writeQueue := client.writeQueue ++ [message]
        sent := client.sent ++ [message] } underWay := by
  cases course with
  | resting outstandingEq stateEq => exact .resting outstandingEq stateEq
  | connecting stage isStage outstandingEq stateEq =>
      exact .connecting stage isStage outstandingEq stateEq
  | reading outstandingEq stateEq => exact .reading outstandingEq stateEq
  | writing front rest outstandingEq stateEq queueEq =>
      exact .writing front (rest ++ [message]) outstandingEq stateEq (by simp [queueEq])
  | ending front rest outstandingEq stateEq queueEq =>
      exact .ending front (rest ++ [message]) outstandingEq stateEq (by simp [queueEq])

/-- In `Connected` a client only reads. -/
theorem Course.of_connected {underWay : List Bytes} (course : Course client underWay)
    (connected : client.state = .connected) :
    client.outstanding = [.read] ∧ underWay = [] := by
  cases course with
  | reading outstandingEq => exact ⟨outstandingEq, rfl⟩
  | resting _ stateEq => simp [stateEq] at connected
  | connecting _ _ _ stateEq => simp [stateEq] at connected
  | writing _ _ _ stateEq => simp [stateEq] at connected
  | ending _ _ _ stateEq => simp [stateEq] at connected

/-- A stage under way is the only operation. -/
theorem Course.of_stage {underWay : List Bytes} (course : Course client underWay)
    {stage : Operation} (isStage : stage.IsStage) (outstanding : stage ∈ client.outstanding) :
    client.outstanding = [stage] ∧ client.state = .disconnected ∧ underWay = [] := by
  have notRead : stage ≠ .read := by
    rintro rfl
    exact isStage
  have notWrite : stage ≠ .write := by
    rintro rfl
    exact isStage
  cases course with
  | resting outstandingEq => simp [outstandingEq] at outstanding
  | connecting other _ outstandingEq stateEq =>
      rw [outstandingEq, List.mem_singleton] at outstanding
      exact ⟨by rw [outstandingEq, outstanding], stateEq, rfl⟩
  | reading outstandingEq => simp [outstandingEq, notRead] at outstanding
  | writing _ _ outstandingEq =>
      rcases outstandingEq with outstandingEq | outstandingEq <;>
        simp [outstandingEq, notRead, notWrite] at outstanding
  | ending _ _ outstandingEq => simp [outstandingEq, notWrite] at outstanding

/-- Besides a read there is at most the write of the front of the queue. -/
theorem Course.of_read {underWay : List Bytes} (course : Course client underWay)
    (reading : .read ∈ client.outstanding) :
    (client.finish .read).outstanding = [] ∧
        (client.state = .connected ∨ client.state = .disconnected) ∧ underWay = [] ∨
      ∃ message rest, (client.finish .read).outstanding = [.write] ∧ client.state = .writing ∧
        client.writeQueue = message :: rest ∧ underWay = [message] := by
  cases course with
  | resting outstandingEq => simp [outstandingEq] at reading
  | connecting stage isStage outstandingEq =>
      rw [outstandingEq, List.mem_singleton] at reading
      rw [← reading] at isStage
      exact isStage.elim
  | reading outstandingEq stateEq =>
      exact .inl ⟨by simp [Client.finish, outstandingEq], stateEq, rfl⟩
  | writing message rest outstandingEq stateEq queueEq =>
      refine .inr ⟨message, rest, ?_, stateEq, queueEq, rfl⟩
      rcases outstandingEq with outstandingEq | outstandingEq <;>
        simp [Client.finish, outstandingEq]
  | ending _ _ outstandingEq => simp [outstandingEq] at reading

/-- A write is that of the front of the queue, and besides it there is at most a
read. -/
theorem Course.of_write {underWay : List Bytes} (course : Course client underWay)
    (writing : .write ∈ client.outstanding) :
    ((client.finish .write).outstanding = [] ∨ (client.finish .write).outstanding = [.read]) ∧
      ∃ message rest, client.writeQueue = message :: rest ∧ underWay = [message] := by
  cases course with
  | resting outstandingEq => simp [outstandingEq] at writing
  | connecting stage isStage outstandingEq =>
      rw [outstandingEq, List.mem_singleton] at writing
      rw [← writing] at isStage
      exact isStage.elim
  | reading outstandingEq => simp [outstandingEq] at writing
  | writing message rest outstandingEq _ queueEq =>
      refine ⟨.inr ?_, message, rest, queueEq, rfl⟩
      rcases outstandingEq with outstandingEq | outstandingEq <;>
        simp [Client.finish, outstandingEq]
  | ending message rest outstandingEq _ queueEq =>
      exact ⟨.inl (by simp [Client.finish, outstandingEq]), message, rest, queueEq, rfl⟩

/-- The front of the queue is written, whatever has been queued. -/
theorem Orderly.write (orderly : Orderly results reads opened client)
    (connected : client.state = .connected) (queued : client.writeQueue ≠ []) :
    Orderly results reads opened (write client) := by
  obtain ⟨⟨attempted, underWay, course, handedEq, lengthEq, sentEq⟩, receivedEq, handedLe⟩ :=
    orderly
  obtain ⟨outstandingEq, rfl⟩ := course.of_connected connected
  obtain ⟨message, rest, queueEq⟩ := List.exists_cons_of_ne_nil queued
  rw [write_eq_of_cons connected queueEq]
  rw [List.append_nil] at handedEq
  refine ⟨⟨attempted, [message], ?_, by rw [handedEq], lengthEq, sentEq⟩, receivedEq, ?_⟩
  · exact .writing message rest (.inl (by simp [outstandingEq])) rfl queueEq
  · rw [if_pos connected] at handedLe
    simpa using handedLe

theorem Orderly.send (orderly : Orderly results reads opened client) (message : Bytes) :
    Orderly results reads opened (send client message) := by
  have queued : Orderly results reads opened
      { client with
        writeQueue := client.writeQueue ++ [message]
        sent := client.sent ++ [message] } := by
    obtain ⟨⟨attempted, underWay, course, handedEq, lengthEq, sentEq⟩, receivedEq, handedLe⟩ :=
      orderly
    refine ⟨⟨attempted, underWay, course.queue message, handedEq, lengthEq, ?_⟩, receivedEq,
      handedLe⟩
    rw [← sentEq, List.append_assoc]
  by_cases connected : client.state = .connected
  · rw [BinanceWebSocketClient.send, if_pos connected]
    exact queued.write connected (by simp)
  · rw [send_eq_queued connected]
    exact queued

/-- Ending the connection leaves what is outstanding to complete. -/
theorem Orderly.disconnect (orderly : Orderly results reads opened client)
    (connected : client.state = .connected) (reported : List ErrorCode) :
    Orderly results reads opened { client with state := .disconnected, reported } := by
  obtain ⟨⟨attempted, underWay, course, handedEq, lengthEq, sentEq⟩, receivedEq, handedLe⟩ :=
    orderly
  obtain ⟨outstandingEq, rfl⟩ := course.of_connected connected
  refine ⟨⟨attempted, [], .reading outstandingEq (.inr rfl), handedEq, lengthEq, sentEq⟩,
    receivedEq, ?_⟩
  rw [if_neg (by simp)]
  exact Nat.le_trans (Nat.le_add_right _ _) handedLe

theorem Orderly.close (orderly : Orderly results reads opened client)
    (error : Option ErrorCode) : Orderly results reads opened (close client error) := by
  rw [BinanceWebSocketClient.close.eq_def]
  split
  · exact orderly
  next stillConnected =>
    cases error with
    | none => exact orderly
    | some error =>
        obtain ⟨reported, closedEq⟩ := onClose_eq client error
        dsimp only
        rw [closedEq]
        exact orderly.disconnect (not_not.mp stillConnected) reported

/-- A stage that ends in an error, or leads to the next one. -/
theorem Orderly.stage {completion : Completion}
    (orderly : Orderly results reads opened client)
    (outstanding : completion.operation ∈ client.outstanding)
    (isStage : completion.operation.IsStage)
    (unfinished : completion ≠ .webSocketHandshake none) :
    Orderly results reads opened (callback (client.finish completion.operation) completion) := by
  obtain ⟨⟨attempted, underWay, course, handedEq, lengthEq, sentEq⟩, receivedEq, handedLe⟩ :=
    orderly
  obtain ⟨outstandingEq, stateEq, rfl⟩ := course.of_stage isStage outstanding
  have finished : (client.finish completion.operation).outstanding = [] := by
    simp [Client.finish, outstandingEq]
  have failed : ∀ error, Orderly results reads opened
      (fail (client.finish completion.operation) error) := by
    intro error
    obtain ⟨reported, failedEq⟩ := fail_eq (client.finish completion.operation) error
    rw [failedEq]
    exact ⟨⟨attempted, [], .resting finished stateEq, handedEq, lengthEq, sentEq⟩, receivedEq,
      handedLe⟩
  have next : ∀ stage : Operation, stage.IsStage → Orderly results reads opened
      ((client.finish completion.operation).start stage) := by
    intro stage isStage
    refine ⟨⟨attempted, [], .connecting stage isStage ?_ stateEq, handedEq, lengthEq, sentEq⟩,
      receivedEq, handedLe⟩
    simp [Client.start, finished]
  cases completion with
  | resolve error =>
      cases error with
      | some error => exact failed error
      | none => exact next .connect trivial
  | connect error tlsName =>
      cases error with
      | some error => exact failed error
      | none =>
          cases tlsName with
          | some error => exact failed error
          | none => exact next .tlsHandshake trivial
  | tlsHandshake error =>
      cases error with
      | some error => exact failed error
      | none => exact next .webSocketHandshake trivial
  | webSocketHandshake error =>
      cases error with
      | some error => exact failed error
      | none => exact absurd rfl unfinished
  | read result | write error => exact isStage.elim

theorem handshake_ok_eq (outstandingEq : client.outstanding = [.webSocketHandshake]) :
    callback (client.finish .webSocketHandshake) (.webSocketHandshake none) =
      match client.writeQueue with
      | [] => { client with state := .connected, handshaken := true, outstanding := [.read] }
      | message :: _ =>
          { client with
            state := .writing
            handshaken := true
            handed := client.handed ++ [message]
            outstanding := [.write, .read] } := by
  cases queueEq : client.writeQueue with
  | nil => simp [callback, onWebSocketHandshake, read, Client.start, Client.finish,
      outstandingEq, queueEq]
  | cons message rest => simp [callback, onWebSocketHandshake, read, write, Client.start,
      Client.finish, outstandingEq, queueEq]

/-- The handshake opens a connection, on which the front of the queue is
written at once. -/
theorem Orderly.handshake (orderly : Orderly results reads opened client)
    (shaking : .webSocketHandshake ∈ client.outstanding) :
    Orderly results reads (opened + 1)
      (callback (client.finish .webSocketHandshake) (.webSocketHandshake none)) := by
  obtain ⟨⟨attempted, underWay, course, handedEq, lengthEq, sentEq⟩, receivedEq, handedLe⟩ :=
    orderly
  have isStage : Operation.IsStage .webSocketHandshake := trivial
  obtain ⟨outstandingEq, _, rfl⟩ := course.of_stage isStage shaking
  have handedBound : client.handed.length ≤ opened := Nat.le_trans (Nat.le_add_right _ _) handedLe
  rw [handshake_ok_eq outstandingEq]
  split
  next queueEq =>
    refine ⟨⟨attempted, [], .reading rfl (.inl rfl), handedEq, lengthEq, sentEq⟩, receivedEq, ?_⟩
    exact Nat.add_le_add_right handedBound 1
  next message rest queueEq =>
    rw [List.append_nil] at handedEq
    refine ⟨⟨attempted, [message], .writing message rest (.inr rfl) rfl queueEq, ?_, lengthEq,
      sentEq⟩, receivedEq, ?_⟩
    · exact congrArg (· ++ [message]) handedEq
    · simpa using handedBound

theorem read_ok_received (client : Client) (message : Bytes) :
    callback client (.read (.ok message)) =
      { client with
        received :=
          if client.hasMessageHandler then client.received ++ [message] else client.received
        outstanding := client.outstanding ++ [.read] } := by
  simp only [callback, onRead, read, Client.start]
  split <;> rfl

theorem Orderly.read_ok (orderly : Orderly results reads opened client)
    (reading : .read ∈ client.outstanding) (message : Bytes) :
    Orderly results (reads ++ [message]) opened
      (callback (client.finish .read) (.read (.ok message))) := by
  obtain ⟨⟨attempted, underWay, course, handedEq, lengthEq, sentEq⟩, receivedEq, handedLe⟩ :=
    orderly
  rw [read_ok_received]
  refine ⟨⟨attempted, underWay, ?_, handedEq, lengthEq, sentEq⟩, ?_, handedLe⟩
  · rcases course.of_read reading with
      ⟨finished, stateEq, rfl⟩ | ⟨front, rest, finished, stateEq, queueEq, rfl⟩
    · exact .reading (congrArg (· ++ [.read]) finished) stateEq
    · exact .writing front rest (.inr (congrArg (· ++ [.read]) finished)) stateEq queueEq
  · simp only [Client.finish, receivedEq]
    split <;> rfl

theorem Orderly.read_error (orderly : Orderly results reads opened client)
    (reading : .read ∈ client.outstanding) (error : ErrorCode) :
    Orderly results reads opened
      (callback (client.finish .read) (.read (.error error))) := by
  obtain ⟨⟨attempted, underWay, course, handedEq, lengthEq, sentEq⟩, receivedEq, handedLe⟩ :=
    orderly
  obtain ⟨reported, closedEq⟩ := onClose_eq (client.finish .read) error
  rw [callback, onRead, closedEq]
  refine ⟨⟨attempted, underWay, ?_, handedEq, lengthEq, sentEq⟩, receivedEq, ?_⟩
  · rcases course.of_read reading with ⟨finished, _, rfl⟩ | ⟨front, rest, finished, _, queueEq, rfl⟩
    · exact .resting finished rfl
    · exact .ending front rest finished rfl queueEq
  · exact Nat.le_trans (Nat.le_add_right _ _) handedLe

/-- The write of the message at the front: it is removed if the write has
succeeded, and stays where it is otherwise. -/
theorem Orderly.written (orderly : Orderly results reads opened client)
    (writing : .write ∈ client.outstanding) (error : Option ErrorCode) :
    Orderly (results ++ [error.isNone]) reads opened
      (callback (client.finish .write) (.write error)) := by
  obtain ⟨⟨attempted, underWay, course, handedEq, lengthEq, sentEq⟩, receivedEq, handedLe⟩ :=
    orderly
  obtain ⟨finished, message, rest, queueEq, rfl⟩ := course.of_write writing
  have ended : ∀ later : Client, later.outstanding = (client.finish .write).outstanding →
      later.state = .disconnected → Course later [] := by
    intro later laterEq stateEq
    rcases finished with finished | finished
    · exact .resting (laterEq.trans finished) stateEq
    · exact .reading (laterEq.trans finished) (.inr stateEq)
  have lengthNow : (attempted ++ [message]).length = (results ++ [error.isNone]).length := by
    simp [lengthEq]
  have handedBound : client.handed.length ≤ opened := Nat.le_trans (Nat.le_add_right _ _) handedLe
  cases error with
  | none =>
      rw [write_ok_eq]
      refine ⟨⟨attempted ++ [message], [], ended _ rfl rfl, ?_, lengthNow, ?_⟩, receivedEq,
        handedBound⟩
      · rw [List.append_nil]
        exact handedEq
      · rw [succeeded_concat lengthEq]
        refine Eq.trans ?_ sentEq
        simp [Client.finish, queueEq]
  | some error =>
      obtain ⟨reported, failedEq⟩ :=
        fail_eq { client.finish .write with state := .disconnected } error
      rw [callback, onWrite, failedEq]
      refine ⟨⟨attempted ++ [message], [], ended _ rfl rfl, ?_, lengthNow, ?_⟩, receivedEq,
        handedBound⟩
      · rw [List.append_nil]
        exact handedEq
      · rw [succeeded_concat lengthEq]
        refine Eq.trans ?_ sentEq
        simp [Client.finish]

/-- An action that completes no write, reads nothing and opens no connection. -/
theorem orderly_of_quiet {action : Action} (unwritten : action.written = none)
    (unread : action.messageRead = none) (unopened : action.opens = false)
    (orderly : Orderly results reads opened client) :
    Orderly (results ++ action.written.toList) (reads ++ action.messageRead.toList)
      (opened + action.opens.toNat) client := by
  simpa [unwritten, unread, unopened] using orderly

theorem closeConnection_client (connection : Connection) (error : Option ErrorCode) :
    (closeConnection connection error).client = close connection.client error := by
  rw [closeConnection]
  split <;> rfl

theorem Orderly.completion {completion : Completion}
    (orderly : Orderly results reads opened client)
    (outstanding : completion.operation ∈ client.outstanding) :
    Orderly (results ++ (Action.completion completion).written.toList)
      (reads ++ (Action.completion completion).messageRead.toList)
      (opened + (Action.completion completion).opens.toNat)
      (callback (client.finish completion.operation) completion) := by
  have stage : completion.operation.IsStage → completion ≠ .webSocketHandshake none →
      Orderly results reads opened
        (callback (client.finish completion.operation) completion) :=
    fun isStage unfinished => orderly.stage outstanding isStage unfinished
  cases completion with
  | resolve error => exact orderly_of_quiet rfl rfl rfl (stage trivial nofun)
  | connect error tlsName => exact orderly_of_quiet rfl rfl rfl (stage trivial nofun)
  | tlsHandshake error => exact orderly_of_quiet rfl rfl rfl (stage trivial nofun)
  | webSocketHandshake error =>
      cases error with
      | some error => exact orderly_of_quiet rfl rfl rfl (stage trivial nofun)
      | none =>
          simpa [Action.written, Action.messageRead, Action.opens, Completion.operation] using
            orderly.handshake outstanding
  | read result =>
      cases result with
      | error error => exact orderly_of_quiet rfl rfl rfl (orderly.read_error outstanding error)
      | ok message =>
          simpa [Action.written, Action.messageRead, Action.opens, Completion.operation] using
            orderly.read_ok outstanding message
  | write error =>
      simpa [Action.written, Action.messageRead, Action.opens, Completion.operation] using
        orderly.written outstanding error

theorem act_orderly {connection next : Connection} {action : Action}
    (orderly : Orderly results reads opened connection.client)
    (idle : ReconnectsIdle connection action) (stepped : act connection action = some next) :
    Orderly (results ++ action.written.toList) (reads ++ action.messageRead.toList)
      (opened + action.opens.toNat) next.client := by
  cases action with
  | connect host port target =>
      rw [act, Option.some_inj] at stepped
      subst stepped
      exact orderly_of_quiet rfl rfl rfl (orderly.connect idle host port target)
  | send message =>
      rw [act, Option.some_inj] at stepped
      subst stepped
      exact orderly_of_quiet rfl rfl rfl (orderly.send message)
  | close error =>
      rw [act, Option.some_inj] at stepped
      subst stepped
      refine orderly_of_quiet rfl rfl rfl ?_
      rw [closeConnection_client]
      exact orderly.close error
  | completion completion =>
      rw [act, Option.ite_none_right_eq_some, Option.some_inj] at stepped
      obtain ⟨outstanding, rfl⟩ := stepped
      exact orderly.completion outstanding

end Steps

/-- The results of the writes that have completed. -/
def results (past : List (Connection × Action)) : List Bool :=
  past.filterMap fun taken => taken.2.written

def messagesRead (past : List (Connection × Action)) : List Bytes :=
  past.filterMap fun taken => taken.2.messageRead

def connectionsOpened (past : List (Connection × Action)) : Nat :=
  past.countP fun taken => taken.2.opens

theorem results_concat (past : List (Connection × Action)) (connection : Connection)
    (action : Action) :
    results (past ++ [(connection, action)]) = results past ++ action.written.toList := by
  rw [results, List.filterMap_append]
  cases written : action.written <;> simp [results, written]

theorem messagesRead_concat (past : List (Connection × Action)) (connection : Connection)
    (action : Action) :
    messagesRead (past ++ [(connection, action)]) =
      messagesRead past ++ action.messageRead.toList := by
  rw [messagesRead, List.filterMap_append]
  cases read : action.messageRead <;> simp [messagesRead, read]

theorem connectionsOpened_concat (past : List (Connection × Action)) (connection : Connection)
    (action : Action) :
    connectionsOpened (past ++ [(connection, action)]) =
      connectionsOpened past + action.opens.toNat := by
  rw [connectionsOpened, List.countP_append]
  cases opens : action.opens <;> simp [connectionsOpened, opens]

theorem run_orderly {hasMessageHandler hasErrorHandler : Bool} {actions : List Action}
    {connection : Connection}
    (run : runFrom act { client := { hasMessageHandler, hasErrorHandler } } actions =
      some connection)
    (idle : EveryStep act ReconnectsIdle { client := { hasMessageHandler, hasErrorHandler } }
      actions) :
    let past := trace act { client := { hasMessageHandler, hasErrorHandler } } actions
    Orderly (results past) (messagesRead past) (connectionsOpened past) connection.client := by
  refine invariant_of_trace_of_everyStep
    (fun past connection =>
      Orderly (results past) (messagesRead past) (connectionsOpened past) connection.client)
    ?_ run idle ?_
  · intro past connection next action idle orderly stepped
    rw [results_concat, messagesRead_concat, connectionsOpened_concat]
    exact act_orderly orderly idle stepped
  · exact ⟨⟨[], [], .resting rfl rfl, rfl, rfl, rfl⟩, by simp [messagesRead], Nat.le_refl 0⟩

/-- Over any number of connections, each made when nothing of the last one is
under way: no two operations of a kind overlap, and a stage of a connection
overlaps with nothing.  Of the messages handed to `async_write`, in their order,
those whose write has succeeded are the first of those passed to `send`, and
the rest wait in the queue, whose front is the one being written; the handler
has been given the messages read, in their order, each all that `readBuffer`
held when its read succeeded; and there have been no more writes than
connections. -/
theorem messages_accounted {hasMessageHandler hasErrorHandler : Bool} {actions : List Action}
    {connection : Connection}
    (run : runFrom act { client := { hasMessageHandler, hasErrorHandler } } actions =
      some connection)
    (idle : EveryStep act ReconnectsIdle { client := { hasMessageHandler, hasErrorHandler } }
      actions) :
    let past := trace act { client := { hasMessageHandler, hasErrorHandler } } actions
    let client := connection.client
    client.outstanding.Nodup ∧
      (∀ stage ∈ client.outstanding, stage.IsStage → client.outstanding = [stage]) ∧
      (∃ attempted underWay, client.handed = attempted ++ underWay ∧
        attempted.length = (results past).length ∧
          succeeded attempted (results past) ++ client.writeQueue = client.sent ∧
            underWay <+: client.writeQueue ∧
              underWay.length = client.outstanding.count .write) ∧
      client.received = (if client.hasMessageHandler then messagesRead past else []) ∧
        client.handed.length ≤ connectionsOpened past := by
  intro past client
  obtain ⟨⟨attempted, underWay, course, handedEq, lengthEq, sentEq⟩, receivedEq, handedLe⟩ :=
    run_orderly run idle
  obtain ⟨nodup, alone, isPrefix, countEq⟩ := course.operations
  exact ⟨nodup, alone, ⟨attempted, underWay, handedEq, lengthEq, sentEq, isPrefix, countEq⟩,
    receivedEq, Nat.le_trans (Nat.le_add_right _ _) handedLe⟩

/-- The write of the first message fails; the client is connected again, writes
it once more and leaves the second one in the queue. -/
theorem messages_accounted_two :
    ∃ actions connection,
      runFrom act {} actions = some connection ∧
        connection.client.handed = [[49], [49]] ∧ connection.client.writeQueue = [[50]] ∧
          connection.client.handed.length ≤ connectionsOpened (trace act {} actions) := by
  let stages : List Action :=
    [.connect [104] [52] [47], .completion (.resolve none), .completion (.connect none none),
      .completion (.tlsHandshake none), .completion (.webSocketHandshake none)]
  let actions : List Action :=
    stages ++ [.send [49], .send [50], .completion (.write (some .closed)),
      .completion (.read (.error .closed))] ++ stages ++ [.completion (.write none)]
  have run : runFrom act {} actions = some _ := rfl
  have idle : EveryStep act ReconnectsIdle {} actions := .of_trace (by decide)
  exact ⟨actions, _, run, rfl, rfl, (messages_accounted run idle).2.2.2.2⟩

end BinanceWebSocketClient

end ExchangeConnectivity
