import ExchangeConnectivity.BinanceWebSocketClient

/-!
# When the write queue drains

After a write the client is left in `Disconnected`, so it writes nothing more.
The queue is therefore drained throughout a run exactly when no message is
queued behind another when its write completes, and none is sent to an idle
connection after the first write.
-/

namespace ExchangeConnectivity

open ActionRuns ByteStrings

namespace BinanceWebSocketClient

/-- On a connection that is up, reports no error and writes nothing, every
message passed to `send` has been handed to `async_write` once and in order,
and none is left in the queue. -/
def Drained (client : Client) : Prop :=
  client.handshaken = true → client.failed = false → .write ∉ client.outstanding →
    client.writeQueue = [] ∧ client.handed = client.sent

/-- As long as no completion has failed, a write completes only when no other
message waits behind its own, and a message is sent to an idle connection only
in `Connected`. -/
def KeepsUp (client : Client) : Event → Prop
  | .completion (.write none) => client.failed = false → client.writeQueue.length ≤ 1
  | .send _ =>
      client.handshaken = true → client.failed = false → .write ∉ client.outstanding →
        client.state = .connected
  | _ => True

/-- The stages of making the connection. -/
def Operation.IsStage : Operation → Prop
  | .resolve | .connect | .tlsHandshake | .webSocketHandshake => True
  | .read | .write => False

/-- The states of a client that has kept up so far. -/
inductive Healthy (client : Client) : Prop
  | failed (failedEq : client.failed = true)
  | connecting (failedEq : client.failed = false) (handshakenEq : client.handshaken = false)
      (stateEq : client.state = .disconnected) (stage : Operation) (isStage : stage.IsStage)
      (outstandingEq : client.outstanding = [stage]) (handedEq : client.handed = [])
      (queueEq : client.writeQueue = client.sent)
  | idle (failedEq : client.failed = false) (handshakenEq : client.handshaken = true)
      (stateEq : client.state = .connected ∨ client.state = .disconnected)
      (outstandingEq : client.outstanding = [.read]) (queueEq : client.writeQueue = [])
      (handedEq : client.handed = client.sent)
  | writing (failedEq : client.failed = false) (handshakenEq : client.handshaken = true)
      (stateEq : client.state = .writing)
      (outstandingEq : client.outstanding = [.read, .write] ∨
        client.outstanding = [.write, .read])
      (message : Bytes) (rest : List Bytes) (queueEq : client.writeQueue = message :: rest)
      (handedEq : client.handed ++ rest = client.sent)

theorem Healthy.drained {client : Client} (healthy : Healthy client) : Drained client := by
  intro handshaken failed notWriting
  cases healthy with
  | failed failedEq => simp [failed] at failedEq
  | connecting _ handshakenEq => simp [handshaken] at handshakenEq
  | idle _ _ _ _ queueEq handedEq => exact ⟨queueEq, handedEq⟩
  | writing _ _ _ outstandingEq =>
      rcases outstandingEq with outstandingEq | outstandingEq <;>
        simp [outstandingEq] at notWriting

/-- What a step from a healthy state does: it keeps up and stays healthy, or
it does neither. -/
def Decided (client : Client) (event : Event) (next : Client) : Prop :=
  (KeepsUp client event ∧ Healthy next) ∨ (¬ KeepsUp client event ∧ ¬ Drained next)

@[simp]
theorem write_failed (client : Client) : (write client).failed = client.failed := by
  rw [write]
  split
  · rfl
  · split <;> rfl

@[simp]
theorem send_failed (client : Client) (message : Bytes) :
    (send client message).failed = client.failed := by
  simp only [send]
  split
  · rw [write_failed]
  · rfl

/-- No callback forgets a failure. -/
theorem callback_failed {client : Client} (failed : client.failed = true)
    (completion : Completion) : (callback client completion).failed = true := by
  cases completion with
  | resolve error => cases error <;> simp [callback, onResolve, fail, Client.start, failed]
  | connect error tlsName =>
      cases error <;> cases tlsName <;>
        simp [callback, onConnect, fail, Client.start, failed]
  | tlsHandshake error =>
      cases error <;> simp [callback, onSslHandshake, fail, Client.start, failed]
  | webSocketHandshake error =>
      cases error with
      | some error => simp [callback, onWebSocketHandshake, fail]
      | none =>
          simp only [callback, onWebSocketHandshake, read, Client.start]
          split <;> simp [failed]
  | read result =>
      cases result with
      | error error => simp [callback, onRead]
      | ok message =>
          simp only [callback, onRead, read, Client.start]
          split <;> exact failed
  | write error =>
      cases error with
      | some error => simp [callback, onWrite, fail]
      | none =>
          simp only [callback, onWrite]
          split <;> simp [failed]

/-- Except in `Connected`, a message sent is only queued. -/
theorem send_eq_queued {client : Client} (notConnected : client.state ≠ .connected)
    (message : Bytes) :
    send client message =
      { client with
        writeQueue := client.writeQueue ++ [message]
        sent := client.sent ++ [message] } := by
  simp [send, notConnected]

theorem send_decided {client : Client} (healthy : Healthy client) (message : Bytes) :
    Decided client (.send message) (send client message) := by
  cases healthy with
  | failed failedEq =>
      refine Or.inl ⟨fun _ failed => by simp [failed] at failedEq, .failed ?_⟩
      rw [send_failed, failedEq]
  | connecting failedEq handshakenEq stateEq stage isStage outstandingEq handedEq queueEq =>
      refine Or.inl ⟨fun handshaken => by simp [handshaken] at handshakenEq, ?_⟩
      rw [send_eq_queued (by simp [stateEq])]
      exact .connecting failedEq handshakenEq stateEq stage isStage outstandingEq handedEq
        (by simp [queueEq])
  | idle failedEq handshakenEq stateEq outstandingEq queueEq handedEq =>
      rcases stateEq with connected | disconnected
      · refine Or.inl ⟨fun _ _ _ => connected, ?_⟩
        have sendEq : send client message =
            { client with
              writeQueue := [message]
              sent := client.sent ++ [message]
              handed := client.handed ++ [message]
              state := .writing
              outstanding := [.read, .write] } := by
          simp [send, write, Client.start, connected, queueEq, outstandingEq]
        rw [sendEq]
        exact .writing failedEq handshakenEq rfl (Or.inl rfl) message [] rfl
          (by simp [handedEq])
      · have notWriting : .write ∉ client.outstanding := by simp [outstandingEq]
        refine Or.inr ⟨?_, ?_⟩
        · intro keepsUp
          have connected := keepsUp handshakenEq failedEq notWriting
          simp [disconnected] at connected
        · intro drained
          rw [send_eq_queued (by simp [disconnected])] at drained
          have empty := (drained handshakenEq failedEq notWriting).1
          simp at empty
  | writing failedEq handshakenEq stateEq outstandingEq front rest queueEq handedEq =>
      have writing : .write ∈ client.outstanding := by
        rcases outstandingEq with outstandingEq | outstandingEq <;> simp [outstandingEq]
      refine Or.inl ⟨fun _ _ notWriting => absurd writing notWriting, ?_⟩
      rw [send_eq_queued (by simp [stateEq])]
      exact .writing failedEq handshakenEq stateEq outstandingEq front (rest ++ [message])
        (by simp [queueEq]) (by simp [← handedEq])

theorem connecting_completion {client : Client} (failedEq : client.failed = false)
    (handshakenEq : client.handshaken = false) (stateEq : client.state = .disconnected)
    {completion : Completion} (isStage : completion.operation.IsStage)
    (outstandingEq : client.outstanding = [completion.operation])
    (handedEq : client.handed = []) (queueEq : client.writeQueue = client.sent) :
    Healthy (callback (client.finish completion.operation) completion) := by
  have finished : (client.finish completion.operation).outstanding = [] := by
    simp [Client.finish, outstandingEq]
  cases completion with
  | resolve error =>
      cases error with
      | some error => exact .failed rfl
      | none =>
          exact .connecting failedEq handshakenEq stateEq .connect trivial
            (by simp [callback, onResolve, Client.start, finished]) handedEq queueEq
  | connect error tlsName =>
      cases error with
      | some error => exact .failed rfl
      | none =>
          cases tlsName with
          | some error => exact .failed rfl
          | none =>
              exact .connecting failedEq handshakenEq stateEq .tlsHandshake trivial
                (by simp [callback, onConnect, Client.start, finished]) handedEq queueEq
  | tlsHandshake error =>
      cases error with
      | some error => exact .failed rfl
      | none =>
          exact .connecting failedEq handshakenEq stateEq .webSocketHandshake trivial
            (by simp [callback, onSslHandshake, Client.start, finished]) handedEq queueEq
  | webSocketHandshake error =>
      cases error with
      | some error => exact .failed rfl
      | none =>
          rcases queued : client.writeQueue with _ | ⟨message, rest⟩
          · refine .idle ?_ ?_ (Or.inl ?_) ?_ ?_ ?_ <;>
              simp [callback, onWebSocketHandshake, read, Client.start, Client.finish,
                queued, failedEq, outstandingEq, handedEq, ← queueEq,
                Completion.operation]
          · refine .writing ?_ ?_ ?_ (Or.inr ?_) message rest ?_ ?_ <;>
              simp [callback, onWebSocketHandshake, read, write, Client.start,
                Client.finish, queued, failedEq, outstandingEq, handedEq, ← queueEq,
                Completion.operation]
  | read result => exact isStage.elim
  | write error => exact isStage.elim

theorem read_error_failed (client : Client) (error : ErrorCode) :
    (callback client (.read (.error error))).failed = true :=
  rfl

/-- Reading a message changes only what was received and which operation is
outstanding last. -/
theorem read_ok_eq (client : Client) (message : Bytes) :
    ∃ received, callback client (.read (.ok message)) =
      { client with received, outstanding := client.outstanding ++ [.read] } := by
  simp only [callback, onRead, read, Client.start]
  split
  · exact ⟨_, rfl⟩
  · exact ⟨client.received, rfl⟩

/-- A successful write removes its message and starts no other. -/
theorem write_ok_eq (client : Client) :
    callback client (.write none) =
      { client with state := .disconnected, writeQueue := client.writeQueue.tail } := by
  simp only [callback, onWrite]
  split
  · rw [write]
    split
    · rfl
    · rw [if_pos (by simp)]
  · rfl

theorem idle_read {client : Client} (failedEq : client.failed = false)
    (handshakenEq : client.handshaken = true)
    (stateEq : client.state = .connected ∨ client.state = .disconnected)
    (outstandingEq : client.outstanding = [.read]) (queueEq : client.writeQueue = [])
    (handedEq : client.handed = client.sent) (result : Except ErrorCode Bytes) :
    Healthy (callback (client.finish .read) (.read result)) := by
  cases result with
  | error error => exact .failed (read_error_failed _ error)
  | ok message =>
      obtain ⟨received, readEq⟩ := read_ok_eq (client.finish .read) message
      rw [readEq]
      exact .idle failedEq handshakenEq stateEq (by simp [Client.finish, outstandingEq])
        queueEq handedEq

theorem writing_read {client : Client} (failedEq : client.failed = false)
    (handshakenEq : client.handshaken = true) (stateEq : client.state = .writing)
    (outstandingEq : client.outstanding = [.read, .write] ∨
      client.outstanding = [.write, .read])
    {message : Bytes} {rest : List Bytes} (queueEq : client.writeQueue = message :: rest)
    (handedEq : client.handed ++ rest = client.sent) (result : Except ErrorCode Bytes) :
    Healthy (callback (client.finish .read) (.read result)) := by
  cases result with
  | error error => exact .failed (read_error_failed _ error)
  | ok received =>
      obtain ⟨received, readEq⟩ := read_ok_eq (client.finish .read) received
      rw [readEq]
      have rotated : (client.finish .read).outstanding ++ [.read] = [.write, .read] := by
        rcases outstandingEq with outstandingEq | outstandingEq <;>
          simp [Client.finish, outstandingEq]
      exact .writing failedEq handshakenEq stateEq (Or.inr rotated) message rest queueEq
        handedEq

theorem writing_write {client : Client} (failedEq : client.failed = false)
    (handshakenEq : client.handshaken = true)
    (outstandingEq : client.outstanding = [.read, .write] ∨
      client.outstanding = [.write, .read])
    {message : Bytes} {rest : List Bytes} (queueEq : client.writeQueue = message :: rest)
    (handedEq : client.handed ++ rest = client.sent) (error : Option ErrorCode) :
    Decided client (.completion (.write error))
      (callback (client.finish .write) (.write error)) := by
  cases error with
  | some error => exact Or.inl ⟨trivial, .failed rfl⟩
  | none =>
      rw [write_ok_eq]
      have finished : (client.finish .write).outstanding = [.read] := by
        rcases outstandingEq with outstandingEq | outstandingEq <;>
          simp [Client.finish, outstandingEq]
      have popped : (client.finish .write).writeQueue.tail = rest := by
        simp [Client.finish, queueEq]
      cases rest with
      | nil =>
          refine Or.inl ⟨fun _ => by simp [queueEq], ?_⟩
          rw [List.append_nil] at handedEq
          exact .idle failedEq handshakenEq (Or.inr rfl) finished popped handedEq
      | cons second rest =>
          refine Or.inr ⟨fun keepsUp => ?_, fun drained => ?_⟩
          · have short := keepsUp failedEq
            simp [queueEq] at short
          · have notWriting : .write ∉ (client.finish .write).outstanding := by
              simp [finished]
            have empty := (drained handshakenEq failedEq notWriting).1
            simp [popped] at empty

/-- Every step from a healthy state is decided by whether it keeps up. -/
theorem step_decided {client next : Client} {event : Event} (healthy : Healthy client)
    (stepped : step client event = some next) : Decided client event next := by
  cases event with
  | send message =>
      rw [step, Option.some_inj] at stepped
      exact stepped ▸ send_decided healthy message
  | completion completion =>
      rw [step, Option.ite_none_right_eq_some, Option.some_inj] at stepped
      obtain ⟨outstanding, rfl⟩ := stepped
      cases healthy with
      | failed failedEq =>
          have keepsUp : KeepsUp client (.completion completion) := by
            cases completion with
            | write error => cases error <;> simp [KeepsUp, failedEq]
            | _ => trivial
          have stillFailed : (client.finish completion.operation).failed = true := failedEq
          exact Or.inl ⟨keepsUp, .failed (callback_failed stillFailed completion)⟩
      | connecting failedEq handshakenEq stateEq stage isStage outstandingEq handedEq
          queueEq =>
          rw [outstandingEq, List.mem_singleton] at outstanding
          subst outstanding
          have keepsUp : KeepsUp client (.completion completion) := by
            cases completion with
            | write error => exact isStage.elim
            | _ => trivial
          exact Or.inl ⟨keepsUp, connecting_completion failedEq handshakenEq stateEq isStage
            outstandingEq handedEq queueEq⟩
      | idle failedEq handshakenEq stateEq outstandingEq queueEq handedEq =>
          cases completion with
          | read result =>
              exact Or.inl ⟨trivial, idle_read failedEq handshakenEq stateEq
                outstandingEq queueEq handedEq result⟩
          | _ => simp [outstandingEq, Completion.operation] at outstanding
      | writing failedEq handshakenEq stateEq outstandingEq message rest queueEq
          handedEq =>
          cases completion with
          | read result =>
              exact Or.inl ⟨trivial, writing_read failedEq handshakenEq stateEq
                outstandingEq queueEq handedEq result⟩
          | write error =>
              exact writing_write failedEq handshakenEq outstandingEq queueEq handedEq
                error
          | _ =>
              rcases outstandingEq with outstandingEq | outstandingEq <;>
                simp [outstandingEq, Completion.operation] at outstanding

/-- A new client, given the early messages and then connected. -/
def opened (host port target : Bytes) (early : List Bytes)
    (hasMessageHandler hasErrorHandler : Bool) : Client :=
  connect (early.foldl send { hasMessageHandler, hasErrorHandler }) host port target

theorem foldl_send_eq (early : List Bytes) {client : Client}
    (stateEq : client.state = .disconnected) :
    early.foldl send client =
      { client with
        writeQueue := client.writeQueue ++ early
        sent := client.sent ++ early } := by
  induction early generalizing client with
  | nil => simp
  | cons message early ih =>
      rw [List.foldl_cons, send_eq_queued (by simp [stateEq])]
      refine (ih ?_).trans ?_
      · exact stateEq
      · simp

theorem opened_healthy (host port target : Bytes) (early : List Bytes)
    (hasMessageHandler hasErrorHandler : Bool) :
    Healthy (opened host port target early hasMessageHandler hasErrorHandler) := by
  rw [opened, foldl_send_eq early rfl]
  exact .connecting rfl rfl rfl .resolve trivial rfl rfl rfl

/-- Along any run of sends and completions, the queue is drained in every state
exactly when every step keeps up. -/
theorem drained_throughout_iff (host port target : Bytes) (early : List Bytes)
    (hasMessageHandler hasErrorHandler : Bool) (events : List Event) :
    EveryState step Drained
        (opened host port target early hasMessageHandler hasErrorHandler) events ↔
      EveryStep step KeepsUp
        (opened host port target early hasMessageHandler hasErrorHandler) events := by
  have healthy := opened_healthy host port target early hasMessageHandler hasErrorHandler
  refine everyState_iff_everyStep ?_ ?_ events healthy healthy.drained
  · intro client next event healthy stepped
    rcases step_decided healthy stepped with ⟨keepsUp, healthy⟩ | ⟨lags, undrained⟩
    · exact iff_of_true keepsUp healthy.drained
    · exact iff_of_false lags undrained
  · intro client next event healthy stepped keepsUp
    rcases step_decided healthy stepped with ⟨_, healthy⟩ | ⟨lags, _⟩
    · exact healthy
    · exact absurd keepsUp lags

/-- Of two messages sent after the handshake, the second is never written. -/
theorem second_message_stranded :
    ∃ client,
      runFrom step (opened [104] [52] [47] [] true true)
          [.completion (.resolve none), .completion (.connect none none),
            .completion (.tlsHandshake none), .completion (.webSocketHandshake none),
            .send [49], .send [50], .completion (.write none)] = some client ∧
        client.handshaken = true ∧ client.failed = false ∧
          client.outstanding = [.read] ∧ client.sent = [[49], [50]] ∧
            client.handed = [[49]] ∧ client.writeQueue = [[50]] ∧ ¬ Drained client := by
  refine ⟨_, rfl, rfl, rfl, rfl, rfl, rfl, rfl, ?_⟩
  intro drained
  have empty := (drained rfl rfl (by decide)).1
  cases empty

end BinanceWebSocketClient

end ExchangeConnectivity
