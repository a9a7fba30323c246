import ExchangeConnectivity.UserDataStream
import ExchangeConnectivity.WebSocketClientSessions

/-!
# Subscriptions of the user data stream

`start` and `stop` of `binance_order_execution_module/main.cpp` on top of the
WebSocket client: each successful `start` makes one session, whose only message
is the signed request, and stops the session before it.
-/

namespace ExchangeConnectivity

open ActionRuns ByteStrings Strands WebSocketClient

namespace BinanceUserDataStream

def host : Bytes := ascii "ws-api.testnet.binance.vision"

def port : Bytes := ascii "443"

def target : Bytes := ascii "/ws-api/v3"

/-- The stream with its WebSocket client. -/
structure State where
  stream : BinanceUserDataStream
  webSocketClient : Client

/-- The stream as its constructor leaves it. -/
def newState (stream : BinanceUserDataStream) : State :=
  { stream, webSocketClient := newClient host port target }

/-- What `start` returns and leaves; the clock's value is `timestamp`. -/
def start (hmac : Bytes → Int32 → Bytes → Option Bytes) (state : State) (timestamp : Int64)
    (hasHandler : Bool) : Bool × State :=
  if state.stream.apiKey = [] ∨ state.stream.secretKey = [] ∨ hasHandler = false then
    (false, state)
  else
    match createSubscribeRequest hmac state.stream timestamp with
    | none => (false, state)
    | some request =>
        let started := WebSocketClient.start state.webSocketClient hasHandler
        (true, { state with webSocketClient := send started request })

/-- `stop`, which the destructor calls as well. -/
def stop (state : State) : State :=
  { state with webSocketClient := WebSocketClient.stop state.webSocketClient }

/-- A call of the stream, or what runs on the strand of one of its sessions. -/
inductive Event
  | start (timestamp : Int64) (hasHandler : Bool)
  | stop
  | runPosted (index : Nat)
  | complete (index : Nat) (completion : WebSocketSession.Completion)

def step (hmac : Bytes → Int32 → Bytes → Option Bytes) (state : State) : Event → Option State
  | .start timestamp hasHandler => some (start hmac state timestamp hasHandler).2
  | .stop => some (stop state)
  | .runPosted index =>
      (WebSocketClient.step state.webSocketClient (.runPosted index)).map fun client =>
        { state with webSocketClient := client }
  | .complete index completion =>
      (WebSocketClient.step state.webSocketClient (.complete index completion)).map fun client =>
        { state with webSocketClient := client }

/-- The request that a call of `start` sends, if it does not fail. -/
def requestOf (hmac : Bytes → Int32 → Bytes → Option Bytes) (stream : BinanceUserDataStream) :
    Event → List Bytes
  | .start timestamp hasHandler =>
      if stream.apiKey = [] ∨ stream.secretKey = [] ∨ hasHandler = false then []
      else (createSubscribeRequest hmac stream timestamp).toList
  | _ => []

/-- The requests of the calls of `start` that do not fail. -/
def requests (hmac : Bytes → Int32 → Bytes → Option Bytes) (stream : BinanceUserDataStream)
    (events : List Event) : List Bytes :=
  events.flatMap (requestOf hmac stream)

/-- Each session has been sent its request, and only the last may be held. -/
structure Subscribed (stream : BinanceUserDataStream) (requests : List Bytes) (state : State) :
    Prop where
  stream_eq : state.stream = stream
  routed : Routed (fun index => requests[index]?.toList) state.webSocketClient
  length_eq : state.webSocketClient.sessions.length = requests.length
  held_last : ∀ index, state.webSocketClient.session = some index →
    index + 1 = requests.length

variable {hmac : Bytes → Int32 → Bytes → Option Bytes} {stream : BinanceUserDataStream}
  {state next : State} {sent : List Bytes}

theorem subscribed_new (stream : BinanceUserDataStream) :
    Subscribed stream [] (newState stream) where
  stream_eq := rfl
  routed := routed_new host port target
  length_eq := rfl
  held_last := fun _ held => by cases held

/-- A session that is started and sent its request. -/
theorem Subscribed.subscribe (subscribed : Subscribed stream sent state) (hasHandler : Bool)
    (request : Bytes) :
    Subscribed stream (sent ++ [request])
      { state with
        webSocketClient :=
          send (WebSocketClient.start state.webSocketClient hasHandler) request } := by
  have session : (WebSocketClient.start state.webSocketClient hasHandler).session =
      some sent.length := by
    rw [← subscribed.length_eq]
    simp [WebSocketClient.start, WebSocketClient.stop]
  refine ⟨subscribed.stream_eq, ?_, ?_, ?_⟩
  · have routed := send_routed (start_routed subscribed.routed hasHandler) request
    have same : (fun index => sent[index]?.toList ++
        sentBy index (WebSocketClient.start state.webSocketClient hasHandler) (.send request)) =
          fun index => (sent ++ [request])[index]?.toList := by
      funext index
      simp only [sentBy, session, Option.some_inj, List.getElem?_append]
      by_cases last : sent.length = index
      · simp [← last]
      · by_cases earlier : index < sent.length
        · simp [earlier, last]
        · have beyond : index - sent.length ≠ 0 := by omega
          simp [earlier, last, beyond]
    rwa [same] at routed
  · rw [send, Client.post_length]
    simp [WebSocketClient.start, WebSocketClient.stop, subscribed.length_eq]
  · intro index held
    have same : sent.length = index := Option.some_inj.mp (session.symm.trans held)
    rw [List.length_append, same]
    rfl

theorem Subscribed.onStrand (subscribed : Subscribed stream sent state)
    {event : WebSocketClient.Event} (onStrand : ∃ index runs,
      WebSocketClient.step state.webSocketClient event =
        state.webSocketClient.onStrand index runs)
    (unsent : ∀ index, sentBy index state.webSocketClient event = [])
    (stepped : (WebSocketClient.step state.webSocketClient event).map
      (fun client => { state with webSocketClient := client }) = some next) :
    Subscribed stream sent next := by
  obtain ⟨client, ran, rfl⟩ := Option.map_eq_some_iff.mp stepped
  have routed := step_routed subscribed.routed ran
  simp only [unsent, List.append_nil] at routed
  obtain ⟨index, runs, asRuns⟩ := onStrand
  rw [asRuns] at ran
  obtain ⟨strand, after, -, -, rfl⟩ := Client.onStrand_eq_some_iff.mp ran
  refine ⟨subscribed.stream_eq, routed, ?_, subscribed.held_last⟩
  rw [List.length_set]
  exact subscribed.length_eq

theorem step_subscribed {event : Event} (subscribed : Subscribed stream sent state)
    (stepped : step hmac state event = some next) :
    Subscribed stream (sent ++ requestOf hmac stream event) next := by
  cases event with
  | start timestamp hasHandler =>
      obtain rfl : (start hmac state timestamp hasHandler).2 = next := by
        simpa [step] using stepped
      obtain rfl := subscribed.stream_eq
      rw [start, requestOf]
      split
      · rwa [List.append_nil]
      · cases createSubscribeRequest hmac state.stream timestamp with
        | none => rwa [Option.toList_none, List.append_nil]
        | some request => exact subscribed.subscribe hasHandler request
  | stop =>
      obtain rfl : stop state = next := by simpa [step] using stepped
      rw [requestOf, List.append_nil]
      · refine ⟨subscribed.stream_eq, stop_routed subscribed.routed, ?_, ?_⟩
        · rw [stop, WebSocketClient.stop, Client.post_length]
          exact subscribed.length_eq
        · intro index held
          cases held
      · simp
  | runPosted index =>
      rw [requestOf, List.append_nil]
      · exact subscribed.onStrand ⟨index, _, rfl⟩ (fun _ => rfl) stepped
      · simp
  | complete index completion =>
      rw [requestOf, List.append_nil]
      · exact subscribed.onStrand ⟨index, _, rfl⟩ (fun _ => rfl) stepped
      · simp

theorem run_subscribed {events : List Event}
    (run : runFrom (step hmac) (newState stream) events = some state) :
    Subscribed stream (requests hmac stream events) state := by
  refine invariant_of_actions (fun past => Subscribed stream (requests hmac stream past)) ?_ run
    (subscribed_new stream)
  intro past before next event subscribed stepped
  simpa [requests] using step_subscribed subscribed stepped

/-- On a connected session nothing is left to write that is not behind a
message handed on. -/
theorem handed_or_nothing {accepted written : List Bytes} {session : WebSocketSession.Session}
    (consistent : WebSocketSession.Consistent accepted written session)
    (connected : session.state = .connected) :
    session.handed ≠ [] ∨ session.unstarted = [] := by
  cases consistent with
  | idle stateEq => simp [stateEq] at connected
  | connecting stateEq => simp [stateEq] at connected
  | waiting _ notWriting _ _ _ _ queueEq =>
      right
      simp [WebSocketSession.Session.unstarted, notWriting, queueEq]
  | writing _ _ message _ _ _ handedEq =>
      left
      simp [handedEq]
  | stopped stateEq => simp [stateEq] at connected

/-- Every successful `start` makes one session and no other call does.  A session
sends its own signed request and nothing else, and has sent it once it is
connected; once the lambdas posted have run, every session but the last is
stopped. -/
theorem one_request_per_session {events : List Event}
    (run : runFrom (step hmac) (newState stream) events = some state) :
    state.webSocketClient.sessions.length = (requests hmac stream events).length ∧
      ∀ index strand, state.webSocketClient.sessions[index]? = some strand →
        ∃ request, (requests hmac stream events)[index]? = some request ∧
          strand.machine.handed <+: [request] ∧
          (strand.posted = [] →
            (strand.machine.state = .connected → strand.machine.handed = [request]) ∧
            (index + 1 ≠ (requests hmac stream events).length →
              strand.machine.state = .stopped)) := by
  have subscribed := run_subscribed run
  refine ⟨subscribed.length_eq, fun index strand found => ?_⟩
  have within := (List.getElem?_eq_some_iff.mp found).1
  rw [subscribed.length_eq] at within
  obtain ⟨hasHandler, carries⟩ := subscribed.routed.carries index strand found
  simp only [List.getElem?_eq_getElem within, Option.toList_some] at carries
  refine ⟨_, List.getElem?_eq_getElem within, handed_in_order carries, fun idle => ⟨?_, ?_⟩⟩
  · intro connected
    have running : strand.machine.state ≠ .stopped := by simp [connected]
    have whole := handed_unstarted carries idle running
    rcases handed_or_nothing (WebSocketSession.run_consistent carries.follows) connected with
      some | none
    · obtain ⟨first, rest, handed⟩ := List.exists_cons_of_ne_nil some
      rw [handed, List.cons_append, List.cons.injEq, List.append_eq_nil_iff] at whole
      rw [handed, whole.1, whole.2.1]
    · rwa [none, List.append_nil] at whole
  · intro notLast
    have released : state.webSocketClient.session ≠ some index :=
      fun held => notLast (subscribed.held_last index held)
    rcases stopped_or_stop_mem carries released with stopped | member
    · exact stopped
    · rw [idle] at member
      cases member

/-- A stream that is started twice: the second session sends its request, and
the first has stopped without sending one. -/
theorem one_request_per_session_two :
    ∃ events state,
      runFrom (step fun _ _ _ => some [171]) (newState ⟨ascii "key", ascii "secret"⟩) events =
          some state ∧
        state.webSocketClient.sessions.map (fun strand => strand.machine.handed.length) =
          [0, 1] ∧
        state.webSocketClient.sessions.length =
          (requests (fun _ _ _ => some [171]) ⟨ascii "key", ascii "secret"⟩ events).length := by
  have run : runFrom (step fun _ _ _ => some [171]) (newState ⟨ascii "key", ascii "secret"⟩)
      [.start 1 true, .start 2 false, .start 3 true, .runPosted 1, .runPosted 0,
        .complete 1 (.resolve none), .complete 1 (.connect none true), .runPosted 1,
        .runPosted 0, .complete 1 (.tlsHandshake none), .complete 1 (.handshake none),
        .runPosted 0] = some _ := rfl
  exact ⟨_, _, run, rfl, (one_request_per_session run).1⟩

end BinanceUserDataStream

end ExchangeConnectivity
