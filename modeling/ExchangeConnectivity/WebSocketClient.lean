import ExchangeConnectivity.Strands
import ExchangeConnectivity.WebSocketSessionOperations

/-!
# The WebSocket client and its sessions

`WebSocketClient` of `web_socket_client/web_socket_client.cpp`, of which the
order-execution module has a copy.  Each `start` makes a session of its own,
which lives on until its operations have ended, so that several sessions run at
once, each on its strand.
-/

namespace ExchangeConnectivity

open ActionRuns ByteStrings Strands

namespace WebSocketClient

open WebSocketSession (Session newSession)

/-- The client with every session it has made, in their order; `session` is the
one it holds. -/
structure Client where
  host : Bytes
  port : Bytes
  target : Bytes
  sessions : List (Strand Session WebSocketSession.Event) := []
  session : Option Nat := none

/-- The client as its constructor leaves it. -/
def newClient (host port target : Bytes) : Client :=
  { host, port, target }

/-- A call of the session held, which posts to its strand. -/
def Client.post (client : Client) (event : WebSocketSession.Event) : Client :=
  { client with
    sessions :=
      match client.session with
      | none => client.sessions
      | some index => client.sessions.modify index (·.post event) }

/-- `stop`, which the destructor calls as well. -/
def stop (client : Client) : Client :=
  { client.post .stop with session := none }

def start (client : Client) (hasHandler : Bool) : Client :=
  let client := stop client
  let session := newSession client.host client.port client.target hasHandler
  { client with
    sessions := client.sessions ++ [Strand.post { machine := session } .start]
    session := some client.sessions.length }

def send (client : Client) (message : Bytes) : Client :=
  client.post (.send message)

/-- A call of the client, or what runs on the strand of one of its sessions:
the lambda posted first or the completion of an outstanding operation. -/
inductive Event
  | start (hasHandler : Bool)
  | send (message : Bytes)
  | stop
  | runPosted (index : Nat)
  | complete (index : Nat) (completion : WebSocketSession.Completion)

def Client.onStrand (client : Client) (index : Nat)
    (runs : Strand Session WebSocketSession.Event →
      Option (Strand Session WebSocketSession.Event)) : Option Client := do
  let strand ← client.sessions[index]?
  let next ← runs strand
  some { client with sessions := client.sessions.set index next }

def step (client : Client) : Event → Option Client
  | .start hasHandler => some (start client hasHandler)
  | .send message => some (send client message)
  | .stop => some (stop client)
  | .runPosted index => client.onStrand index (Strand.runPosted WebSocketSession.step)
  | .complete index completion =>
      client.onStrand index (Strand.run WebSocketSession.step · (.completion completion))

/-- Whether an event of a session is posted by the client. -/
def isPosted : WebSocketSession.Event → Bool
  | .completion _ => false
  | _ => true

/-- The message a step sends to the session. -/
def sentBy (index : Nat) (client : Client) : Event → List Bytes
  | .send message => if client.session = some index then [message] else []
  | _ => []

/-- The messages passed to `send` while the client held the session. -/
def sentTo (index : Nat) (past : List (Client × Event)) : List Bytes :=
  past.flatMap fun taken => sentBy index taken.1 taken.2

/-- What a session is given when these messages are sent to it: a session the
client no longer holds has been stopped. -/
def posts (messages : List Bytes) (held : Prop) [Decidable held] :
    List WebSocketSession.Event :=
  .start :: messages.map .send ++ if held then [] else [.stop]

/-- Each session has been started, given its messages and, unless the client
still holds it, stopped. -/
structure Routed (sent : Nat → List Bytes) (client : Client) : Prop where
  held_lt : ∀ index, client.session = some index → index < client.sessions.length
  sent_eq_nil : ∀ index, client.sessions.length ≤ index → sent index = []
  carries : ∀ index strand, client.sessions[index]? = some strand →
    ∃ hasHandler,
      Carries WebSocketSession.step isPosted
        (newSession client.host client.port client.target hasHandler)
        (posts (sent index) (client.session = some index)) strand

theorem routed_new (host port target : Bytes) :
    Routed (fun _ => []) (newClient host port target) where
  held_lt := fun _ held => by cases held
  sent_eq_nil := fun _ _ => rfl
  carries := fun _ _ found => by simp [newClient] at found

theorem posts_of_held {held : Prop} [Decidable held] (holds : held) (messages : List Bytes) :
    posts messages held = .start :: messages.map .send := by
  rw [posts, if_pos holds, List.append_nil]

theorem posts_of_not_held {held : Prop} [Decidable held] (released : ¬ held)
    (messages : List Bytes) :
    posts messages held = .start :: messages.map .send ++ [.stop] := by
  rw [posts, if_neg released]

@[simp]
theorem Client.post_length (client : Client) (event : WebSocketSession.Event) :
    (client.post event).sessions.length = client.sessions.length := by
  rw [Client.post]
  cases client.session with
  | none => rfl
  | some index => exact List.length_modify _ _ _

theorem Client.post_held {client : Client} {index : Nat} (held : client.session = some index)
    (event : WebSocketSession.Event) :
    (client.post event).sessions[index]? = (client.sessions[index]?).map (·.post event) := by
  simp [Client.post, held]

theorem Client.post_other {client : Client} {index : Nat} (other : client.session ≠ some index)
    (event : WebSocketSession.Event) :
    (client.post event).sessions[index]? = client.sessions[index]? := by
  rw [Client.post]
  cases held : client.session with
  | none => rfl
  | some another =>
      have apart : another ≠ index := fun same => other (same ▸ held)
      simp [apart]

variable {sent : Nat → List Bytes} {client : Client}

theorem stop_routed (routed : Routed sent client) : Routed sent (stop client) where
  held_lt := fun _ held => by cases held
  sent_eq_nil := by
    intro index beyond
    exact routed.sent_eq_nil index (client.post_length .stop ▸ beyond)
  carries := by
    intro index strand found
    have released : (stop client).session ≠ some index := by simp [stop]
    rw [posts_of_not_held released]
    by_cases held : client.session = some index
    · rw [stop, Client.post_held held, Option.map_eq_some_iff] at found
      obtain ⟨before, foundBefore, rfl⟩ := found
      obtain ⟨hasHandler, carries⟩ := routed.carries index before foundBefore
      rw [posts_of_held held] at carries
      exact ⟨hasHandler, carries.post rfl⟩
    · rw [stop, Client.post_other held] at found
      obtain ⟨hasHandler, carries⟩ := routed.carries index strand found
      rw [posts_of_not_held held] at carries
      exact ⟨hasHandler, carries⟩

theorem start_routed (routed : Routed sent client) (hasHandler : Bool) :
    Routed sent (start client hasHandler) := by
  have stopped := stop_routed routed
  refine ⟨?_, ?_, ?_⟩
  · intro index held
    obtain rfl : (stop client).sessions.length = index := Option.some_inj.mp held
    simp [start]
  · intro index beyond
    refine stopped.sent_eq_nil index (Nat.le_of_succ_le ?_)
    simpa [start] using beyond
  · intro index strand found
    by_cases new : (stop client).sessions.length = index
    · have held : (start client hasHandler).session = some index := congrArg some new
      rw [posts_of_held held, stopped.sent_eq_nil index (Nat.le_of_eq new)]
      simp only [start, ← new, List.getElem?_concat_length, Option.some_inj] at found
      rw [← found]
      exact ⟨hasHandler, (carries_new _ _ _).post rfl⟩
    · have released : (start client hasHandler).session ≠ some index :=
        fun held => new (Option.some_inj.mp held)
      have within : index < (stop client).sessions.length := by
        have bound := (List.getElem?_eq_some_iff.mp found).1
        simp only [start, List.length_append, List.length_singleton] at bound
        omega
      simp only [start, List.getElem?_append_left within] at found
      obtain ⟨had, carries⟩ := stopped.carries index strand found
      rw [posts_of_not_held (by simp [stop])] at carries
      rw [posts_of_not_held released]
      exact ⟨had, carries⟩

theorem send_routed (routed : Routed sent client) (message : Bytes) :
    Routed (fun index => sent index ++ sentBy index client (.send message))
      (send client message) := by
  refine ⟨?_, ?_, ?_⟩
  · intro index held
    rw [send, Client.post_length]
    exact routed.held_lt index held
  · intro index beyond
    rw [send, Client.post_length] at beyond
    have released : client.session ≠ some index :=
      fun held => absurd (routed.held_lt index held) (Nat.not_lt_of_le beyond)
    rw [routed.sent_eq_nil index beyond, sentBy, if_neg released, List.append_nil]
  · intro index strand found
    by_cases held : client.session = some index
    · rw [send, Client.post_held held, Option.map_eq_some_iff] at found
      obtain ⟨before, foundBefore, rfl⟩ := found
      obtain ⟨hasHandler, carries⟩ := routed.carries index before foundBefore
      rw [posts_of_held held] at carries
      refine ⟨hasHandler, ?_⟩
      have heldStill : (send client message).session = some index := held
      rw [posts_of_held heldStill, sentBy, if_pos held, List.map_append]
      exact carries.post rfl
    · rw [send, Client.post_other held] at found
      obtain ⟨hasHandler, carries⟩ := routed.carries index strand found
      refine ⟨hasHandler, ?_⟩
      rw [sentBy, if_neg held, List.append_nil]
      exact carries

theorem Client.onStrand_eq_some_iff {next : Client} {index : Nat}
    {runs : Strand Session WebSocketSession.Event →
      Option (Strand Session WebSocketSession.Event)} :
    client.onStrand index runs = some next ↔
      ∃ strand after, client.sessions[index]? = some strand ∧ runs strand = some after ∧
        { client with sessions := client.sessions.set index after } = next := by
  simp [Client.onStrand, Option.bind_eq_some_iff]

theorem onStrand_routed {next : Client} {index : Nat}
    {runs : Strand Session WebSocketSession.Event →
      Option (Strand Session WebSocketSession.Event)}
    (keeps : ∀ {hasHandler posts strand after},
      Carries WebSocketSession.step isPosted
        (newSession client.host client.port client.target hasHandler) posts strand →
      runs strand = some after →
        Carries WebSocketSession.step isPosted
          (newSession client.host client.port client.target hasHandler) posts after)
    (routed : Routed sent client) (ran : client.onStrand index runs = some next) :
    Routed sent next := by
  obtain ⟨strand, after, found, ranStrand, rfl⟩ := Client.onStrand_eq_some_iff.mp ran
  refine ⟨?_, ?_, ?_⟩
  · intro held isHeld
    rw [List.length_set]
    exact routed.held_lt held isHeld
  · intro other beyond
    rw [List.length_set] at beyond
    exact routed.sent_eq_nil other beyond
  · intro other otherStrand foundOther
    dsimp only at foundOther
    by_cases same : index = other
    · subst same
      have within := (List.getElem?_eq_some_iff.mp found).1
      rw [List.getElem?_set_self within, Option.some_inj] at foundOther
      rw [← foundOther]
      obtain ⟨hasHandler, carries⟩ := routed.carries index strand found
      exact ⟨hasHandler, keeps carries ranStrand⟩
    · rw [List.getElem?_set_ne same] at foundOther
      exact routed.carries other otherStrand foundOther

theorem step_routed {next : Client} {event : Event} (routed : Routed sent client)
    (stepped : step client event = some next) :
    Routed (fun index => sent index ++ sentBy index client event) next := by
  cases event with
  | start hasHandler =>
      obtain rfl : start client hasHandler = next := by simpa [step] using stepped
      simpa [sentBy] using start_routed routed hasHandler
  | send message =>
      obtain rfl : send client message = next := by simpa [step] using stepped
      exact send_routed routed message
  | stop =>
      obtain rfl : stop client = next := by simpa [step] using stepped
      simpa [sentBy] using stop_routed routed
  | runPosted index =>
      have after := onStrand_routed (fun carries ran => carries.runPosted ran) routed stepped
      simpa [sentBy] using after
  | complete index completion =>
      have after := onStrand_routed (fun carries ran => carries.run rfl ran) routed stepped
      simpa [sentBy] using after

theorem run_routed {host port target : Bytes} {events : List Event}
    (run : runFrom step (newClient host port target) events = some client) :
    Routed (fun index => sentTo index (trace step (newClient host port target) events))
      client := by
  refine invariant_of_trace (fun past client => Routed (fun index => sentTo index past) client)
    ?_ run (routed_new host port target)
  intro past state next event routed stepped
  simpa [sentTo] using step_routed routed stepped

end WebSocketClient

end ExchangeConnectivity
