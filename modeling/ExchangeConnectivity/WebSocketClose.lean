import ExchangeConnectivity.WebSocketQueue

/-!
# When a live connection can be closed

`close` acts in `Connected` only, and a write leaves that state for `Writing`
and then for `Disconnected`, whether it fails or not.  A connection that is up
can therefore be closed throughout a run exactly when nothing is written on it.
-/

namespace ExchangeConnectivity

open ActionRuns ByteStrings

namespace BinanceWebSocketClient

/-- A client with its connection: `live` records that the WebSocket handshake
has succeeded and that no read error, write error or failed close has been
reported since, `closes` how often `webSocket.close` has been called. -/
structure Connection where
  client : Client := {}
  live : Bool := false
  closes : Nat := 0

/-- What a completion tells about the connection. -/
def Completion.live (live : Bool) : Completion → Bool
  | .webSocketHandshake none => true
  | .read (.error _) => false
  | .write (some _) => false
  | _ => live

/-- `error` is the one `webSocket.close` gives, should it be called. -/
def closeConnection (connection : Connection) (error : Option ErrorCode) : Connection :=
  let client := close connection.client error
  if connection.client.state ≠ .connected then { connection with client }
  else
    { client
      live := if error.isSome then false else connection.live
      closes := connection.closes + 1 }

/-- The calls of a user and the completions of outstanding operations. -/
inductive Action
  | connect (host port target : Bytes)
  | send (message : Bytes)
  | close (error : Option ErrorCode)
  | completion (completion : Completion)

def act (connection : Connection) : Action → Option Connection
  | .connect host port target =>
      some { connection with client := connect connection.client host port target }
  | .send message => some { connection with client := send connection.client message }
  | .close error => some (closeConnection connection error)
  | .completion completion =>
      if completion.operation ∈ connection.client.outstanding then
        some
          { connection with
            client := callback (connection.client.finish completion.operation) completion
            live := completion.live connection.live }
      else none

/-- `close` calls `webSocket.close`. -/
def ClosesNow (connection : Connection) : Prop :=
  ∀ error, (closeConnection connection error).closes = connection.closes + 1

/-- A live connection can be closed, and the state tells whether it is live. -/
structure Truthful (connection : Connection) : Prop where
  closes : connection.live = true → ClosesNow connection
  state : (connection.client.state = .connected ∨ connection.client.state = .writing) ↔
    connection.live = true

/-- Nothing is written on a live connection: no message waits for the
handshake, and none is sent after it. -/
def WritesNothing (connection : Connection) : Action → Prop
  | .send _ => connection.live = false
  | .completion (.webSocketHandshake none) => connection.client.writeQueue = []
  | .completion (.write none) => connection.live = false
  | _ => True

theorem closesNow_iff (connection : Connection) :
    ClosesNow connection ↔ connection.client.state = .connected := by
  unfold ClosesNow closeConnection
  by_cases connected : connection.client.state = .connected <;> simp [connected]

/-- `Writing` is never the state of a connection that can be closed. -/
theorem truthful_iff (connection : Connection) :
    Truthful connection ↔
      connection.client.state ≠ .writing ∧
        (connection.client.state = .connected ↔ connection.live = true) := by
  constructor
  · rintro ⟨closes, state⟩
    simp only [closesNow_iff] at closes
    refine ⟨fun writing => ?_, fun connected => state.mp (.inl connected), closes⟩
    have connected := closes (state.mp (.inr writing))
    rw [writing] at connected
    cases connected
  · rintro ⟨notWriting, state⟩
    refine ⟨fun live => (closesNow_iff connection).mpr (state.mpr live), ?_⟩
    rw [or_iff_left notWriting]
    exact state

theorem write_state {client : Client} (connected : client.state = .connected)
    (queued : client.writeQueue ≠ []) : (write client).state = .writing := by
  rw [write]
  split
  next empty => exact absurd empty queued
  next => rw [if_neg (not_not_intro connected)]; rfl

theorem send_state (client : Client) (message : Bytes) :
    (send client message).state =
      if client.state = .connected then .writing else client.state := by
  by_cases connected : client.state = .connected
  · rw [send, if_pos connected, if_pos connected]
    exact write_state connected (by simp)
  · rw [send_eq_queued connected, if_neg connected]

/-- The stages before the WebSocket handshake leave the state alone. -/
theorem stage_state {client : Client} {completion : Completion}
    (isStage : completion.operation.IsStage)
    (unfinished : completion ≠ .webSocketHandshake none) :
    (callback client completion).state = client.state := by
  have failed : ∀ error, (fail client error).state = client.state := by
    intro error
    simp only [fail, reportError]
    split <;> rfl
  cases completion with
  | resolve error => cases error <;> simp [callback, onResolve, failed, Client.start]
  | connect error tlsName =>
      cases error <;> cases tlsName <;> simp [callback, onConnect, failed, Client.start]
  | tlsHandshake error =>
      cases error <;> simp [callback, onSslHandshake, failed, Client.start]
  | webSocketHandshake error =>
      cases error with
      | none => exact absurd rfl unfinished
      | some error => exact failed error
  | read result => exact isStage.elim
  | write error => exact isStage.elim

theorem onClose_state (client : Client) (error : ErrorCode) :
    (onClose client error).state = .disconnected := by
  rw [onClose]
  split
  · rw [reportError]
    split <;> rfl
  · rfl

/-- The handshake leaves `Connected` at once if a message has waited for it. -/
theorem handshake_state (client : Client) :
    (callback client (.webSocketHandshake none)).state =
      if client.writeQueue = [] then .connected else .writing := by
  simp only [callback, onWebSocketHandshake, read, Client.start]
  by_cases empty : client.writeQueue = []
  · simp [empty]
  · rw [if_pos empty, if_neg empty]
    exact write_state rfl empty

section Steps

variable {connection next : Connection}

theorem truthful_of_same (truthful : Truthful connection)
    (stateEq : next.client.state = connection.client.state)
    (liveEq : next.live = connection.live) : Truthful next := by
  rw [truthful_iff] at truthful ⊢
  rw [stateEq, liveEq]
  exact truthful

/-- A reported error ends the connection and the state with it. -/
theorem truthful_of_down (stateEq : next.client.state = .disconnected)
    (liveEq : next.live = false) : Truthful next := by
  rw [truthful_iff, stateEq, liveEq]
  exact ⟨nofun, nofun, nofun⟩

theorem send_decides (truthful : Truthful connection) (message : Bytes) :
    connection.live = false ↔
      Truthful { connection with client := send connection.client message } := by
  obtain ⟨notWriting, stateIff⟩ := (truthful_iff connection).mp truthful
  have sent := send_state connection.client message
  cases live : connection.live with
  | false =>
      have notConnected : connection.client.state ≠ .connected := by
        rw [ne_eq, stateIff, live]
        exact nofun
      rw [if_neg notConnected] at sent
      exact iff_of_true rfl (truthful_of_same truthful sent live.symm)
  | true =>
      rw [if_pos (stateIff.mpr live)] at sent
      exact iff_of_false nofun fun later => ((truthful_iff _).mp later).1 sent

theorem close_truthful (truthful : Truthful connection) (error : Option ErrorCode) :
    Truthful (closeConnection connection error) := by
  rw [closeConnection]
  by_cases connected : connection.client.state = .connected
  · rw [if_neg (not_not_intro connected)]
    cases error with
    | none =>
        refine truthful_of_same truthful ?_ rfl
        simp [close, connected]
    | some error =>
        refine truthful_of_down ?_ rfl
        simp [close, connected, onClose_state]
  · rw [if_pos connected]
    refine truthful_of_same truthful ?_ rfl
    simp [close, connected]

/-- The connection after a completion, with its operation finished. -/
def completed (connection : Connection) (completion : Completion) : Connection :=
  { connection with
    client := callback (connection.client.finish completion.operation) completion
    live := completion.live connection.live }

theorem completion_decides (truthful : Truthful connection) (completion : Completion) :
    WritesNothing connection (.completion completion) ↔
      Truthful (completed connection completion) := by
  have staged : completion.operation.IsStage → completion ≠ .webSocketHandshake none →
      Truthful (completed connection completion) := by
    intro isStage unfinished
    refine truthful_of_same truthful (stage_state isStage unfinished) ?_
    cases completion with
    | webSocketHandshake error =>
        cases error with
        | none => exact absurd rfl unfinished
        | some error => rfl
    | read result | write error => exact isStage.elim
    | _ => rfl
  cases completion with
  | resolve error => exact iff_of_true trivial (staged trivial nofun)
  | connect error tlsName => exact iff_of_true trivial (staged trivial nofun)
  | tlsHandshake error => exact iff_of_true trivial (staged trivial nofun)
  | webSocketHandshake error =>
      cases error with
      | some error => exact iff_of_true trivial (staged trivial nofun)
      | none =>
          have stateEq := handshake_state (connection.client.finish .webSocketHandshake)
          rw [truthful_iff, completed, Completion.operation, stateEq]
          by_cases empty : connection.client.writeQueue = []
          · simp [WritesNothing, Client.finish, Completion.live, empty]
          · simp [WritesNothing, Client.finish, empty]
  | read result =>
      refine iff_of_true trivial ?_
      cases result with
      | error error => exact truthful_of_down (onClose_state _ error) rfl
      | ok message =>
          obtain ⟨received, readEq⟩ := read_ok_eq (connection.client.finish .read) message
          refine truthful_of_same truthful ?_ rfl
          rw [completed, Completion.operation, readEq]
          rfl
  | write error =>
      cases error with
      | some error =>
          refine iff_of_true trivial (truthful_of_down ?_ rfl)
          simp only [completed, callback, onWrite, fail, reportError]
          split <;> rfl
      | none =>
          rw [truthful_iff, completed, Completion.operation, write_ok_eq]
          simp [WritesNothing, Completion.live]

theorem act_decides {action : Action} (truthful : Truthful connection)
    (stepped : act connection action = some next) :
    WritesNothing connection action ↔ Truthful next := by
  cases action with
  | connect host port target =>
      rw [act, Option.some_inj] at stepped
      subst stepped
      exact iff_of_true trivial (truthful_of_same truthful rfl rfl)
  | send message =>
      rw [act, Option.some_inj] at stepped
      subst stepped
      exact send_decides truthful message
  | close error =>
      rw [act, Option.some_inj] at stepped
      subst stepped
      exact iff_of_true trivial (close_truthful truthful error)
  | completion completion =>
      rw [act, Option.ite_none_right_eq_some, Option.some_inj] at stepped
      obtain ⟨_, rfl⟩ := stepped
      exact completion_decides truthful completion

end Steps

/-- Along any run of calls and completions, a live connection can be closed
and the state tells whether it is live, in every state exactly when nothing is
written on a live connection. -/
theorem closable_throughout_iff (hasMessageHandler hasErrorHandler : Bool)
    (actions : List Action) :
    EveryState act Truthful { client := { hasMessageHandler, hasErrorHandler } } actions ↔
      EveryStep act WritesNothing { client := { hasMessageHandler, hasErrorHandler } }
        actions := by
  have initially : Truthful { client := { hasMessageHandler, hasErrorHandler } } :=
    truthful_of_down rfl rfl
  refine everyState_iff_everyStep act_decides ?_ actions initially initially
  exact fun truthful stepped writesNothing => (act_decides truthful stepped).mp writesNothing

/-- After one message has been written, a close of the live connection does
nothing. -/
theorem close_after_write_ignored :
    ∃ connection,
      runFrom act {}
          [.connect [104] [52] [47], .completion (.resolve none), .completion (.connect none none),
            .completion (.tlsHandshake none), .completion (.webSocketHandshake none),
            .send [49], .completion (.write none), .close none] = some connection ∧
        connection.live = true ∧ connection.client.state = .disconnected ∧
          connection.client.outstanding = [.read] ∧ connection.closes = 0 ∧
            ¬ Truthful connection := by
  refine ⟨_, rfl, rfl, rfl, rfl, rfl, fun truthful => ?_⟩
  exact absurd (truthful.closes rfl none) (by decide)

end BinanceWebSocketClient

end ExchangeConnectivity
