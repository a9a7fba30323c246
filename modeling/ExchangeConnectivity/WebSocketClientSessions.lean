import ExchangeConnectivity.WebSocketClient

/-!
# Messages and replaced sessions of the WebSocket client

However the calls of the client and the strands of its sessions interleave, a
message goes to the session held when it is sent, in the order of the calls,
and a session that has been replaced or stopped comes to rest.
-/

namespace ExchangeConnectivity

open ActionRuns ByteStrings Strands

namespace WebSocketSession

def messageOf : Event → List Bytes
  | .send message => [message]
  | _ => []

/-- The messages of the `send` lambdas among these events. -/
def sendsOf (events : List Event) : List Bytes :=
  events.flatMap messageOf

/-- The queued messages of which no write has been started. -/
def Session.unstarted (session : Session) : List Bytes :=
  if session.writing then session.outgoingMessages.tail else session.outgoingMessages

theorem acceptedBy_eq (session : Session) (event : Event) :
    acceptedBy session event = if session.state = .stopped then [] else messageOf event := by
  cases event <;> simp [acceptedBy, messageOf]

/-- A session accepts what it is sent, until it stops. -/
theorem run_accepted {initial session : Session} {events : List Event}
    (run : runFrom step initial events = some session) :
    accepted (trace step initial events) <+: sendsOf events ∧
      (session.state ≠ .stopped → accepted (trace step initial events) = sendsOf events) := by
  have general : accepted (trace step initial events) <+:
        sendsOf ((trace step initial events).map Prod.snd) ∧
      (session.state ≠ .stopped → accepted (trace step initial events) =
        sendsOf ((trace step initial events).map Prod.snd)) := by
    refine invariant_of_trace
      (fun past session => accepted past <+: sendsOf (past.map Prod.snd) ∧
        (session.state ≠ .stopped → accepted past = sendsOf (past.map Prod.snd)))
      ?_ run ⟨List.prefix_rfl, fun _ => rfl⟩
    rintro past session next event ⟨isPrefix, whileRunning⟩ stepped
    simp only [accepted, sendsOf, List.flatMap_append, List.map_append, List.map_cons,
      List.map_nil, List.flatMap_singleton, acceptedBy_eq] at isPrefix whileRunning ⊢
    by_cases stopped : session.state = .stopped
    · rw [if_pos stopped, List.append_nil]
      refine ⟨isPrefix.trans (List.prefix_append _ _), fun running => ?_⟩
      exact absurd (step_stopped stopped stepped).1 running
    · rw [if_neg stopped, whileRunning stopped]
      exact ⟨List.prefix_rfl, fun _ => rfl⟩
  rwa [trace_actions run] at general

/-- A session on which a `stop` has run is stopped. -/
theorem run_stop_mem {initial session : Session} {events : List Event}
    (run : runFrom step initial events = some session) (stop : .stop ∈ events) :
    session.state = .stopped := by
  have general : .stop ∈ (trace step initial events).map Prod.snd →
      session.state = .stopped := by
    refine invariant_of_trace
      (fun past session => .stop ∈ past.map Prod.snd → session.state = .stopped) ?_ run
      (fun member => absurd member List.not_mem_nil)
    intro past session next event before stepped member
    rw [List.map_append, List.mem_append, List.map_cons, List.map_nil,
      List.mem_singleton] at member
    rcases member with member | rfl
    · exact (step_stopped (before member) stepped).1
    · obtain rfl : stopNow session = next := by simpa [step] using stepped
      exact stopNow_state session
  rw [trace_actions run] at general
  exact general stop

theorem Consistent.handed_unstarted {accepted written : List Bytes} {session : Session}
    (consistent : Consistent accepted written session) (running : session.state ≠ .stopped) :
    session.handed ++ session.unstarted = accepted := by
  rw [Session.unstarted]
  cases consistent with
  | idle _ notWriting _ _ handedEq _ queueEq => simp [notWriting, handedEq, queueEq]
  | connecting _ notWriting _ _ _ _ handedEq _ queueEq =>
      simp [notWriting, handedEq, queueEq]
  | waiting _ notWriting _ _ handedEq _ queueEq => simp [notWriting, handedEq, queueEq]
  | writing _ isWriting message rest _ _ handedEq acceptedEq queueEq =>
      simp [isWriting, handedEq, queueEq, ← acceptedEq]
  | stopped stateEq => exact absurd stateEq running

end WebSocketSession

namespace WebSocketClient

open WebSocketSession (Session newSession sendsOf)

theorem sendsOf_posted (events : List WebSocketSession.Event) :
    sendsOf (events.filter isPosted) = sendsOf events := by
  induction events with
  | nil => rfl
  | cons event events ih =>
      simp only [sendsOf] at ih ⊢
      cases event <;> simp [List.filter_cons, isPosted, WebSocketSession.messageOf, ih]

theorem sendsOf_posts (messages : List Bytes) (held : Prop) [Decidable held] :
    sendsOf (posts messages held) = messages := by
  have sends : (messages.map WebSocketSession.Event.send).flatMap
      WebSocketSession.messageOf = messages := by
    induction messages with
    | nil => rfl
    | cons message messages ih => simp [WebSocketSession.messageOf, ih]
  by_cases holds : held <;> simp [sendsOf, posts, holds, WebSocketSession.messageOf, sends]

section Strand

variable {host port target : Bytes} {hasHandler : Bool} {messages : List Bytes} {held : Prop}
  [Decidable held] {strand : Strand Session WebSocketSession.Event}
  (carries : Carries WebSocketSession.step isPosted (newSession host port target hasHandler)
    (posts messages held) strand)
include carries

theorem handed_in_order : strand.machine.handed <+: messages := by
  have handedAccepted :=
    (WebSocketSession.run_consistent carries.follows).stoppable.handed_prefix
  have acceptedSent := (WebSocketSession.run_accepted carries.follows).1
  obtain ⟨later, ranPosted⟩ := carries.ran_prefix
  have sentPosted : sendsOf strand.ran <+: messages := by
    rw [← sendsOf_posts messages held, ← ranPosted, ← sendsOf_posted strand.ran]
    exact ⟨sendsOf later, List.flatMap_append.symm⟩
  exact (handedAccepted.trans acceptedSent).trans sentPosted

/-- Once the lambdas posted have run, a session that is not stopped has handed
on its messages or keeps them for later. -/
theorem handed_unstarted (idle : strand.posted = [])
    (running : strand.machine.state ≠ .stopped) :
    strand.machine.handed ++ strand.machine.unstarted = messages := by
  have acceptedSent := (WebSocketSession.run_accepted carries.follows).2 running
  rw [(WebSocketSession.run_consistent carries.follows).handed_unstarted running, acceptedSent,
    ← sendsOf_posted, carries.ran_eq idle, sendsOf_posts]

theorem stopped_or_stop_mem (released : ¬ held) :
    strand.machine.state = .stopped ∨ .stop ∈ strand.posted := by
  have stop : .stop ∈ strand.ran.filter isPosted ++ strand.posted := by
    rw [carries.in_order, posts_of_not_held released]
    exact List.mem_append_right _ (List.mem_singleton_self _)
  refine (List.mem_append.mp stop).imp_left fun ran => ?_
  exact WebSocketSession.run_stop_mem carries.follows (List.mem_filter.mp ran).1

end Strand

/-- Each session hands on the messages that `send` was called with while the
client held it: they go out in the order of the calls and none goes out twice or
on another session.  Once the lambdas posted have run, a session that is not
stopped has handed them all on or keeps the rest. -/
theorem messages_routed {host port target : Bytes} {events : List Event} {client : Client}
    (run : runFrom step (newClient host port target) events = some client) :
    ∀ index strand, client.sessions[index]? = some strand →
      let messages := sentTo index (trace step (newClient host port target) events)
      strand.machine.handed <+: messages ∧
        (strand.posted = [] → strand.machine.state ≠ .stopped →
          strand.machine.handed ++ strand.machine.unstarted = messages) := by
  intro index strand found
  obtain ⟨hasHandler, carries⟩ := (run_routed run).carries index strand found
  exact ⟨handed_in_order carries, handed_unstarted carries⟩

/-- A client that is started twice: the message sent in between is dropped with
the first session, the later one is written. -/
theorem messages_routed_two :
    ∃ events client,
      runFrom step (newClient [104] [52] [47]) events = some client ∧
        client.sessions.map (fun strand => strand.machine.handed) = [[], [[50]]] ∧
          sentTo 0 (trace step (newClient [104] [52] [47]) events) = [[49]] ∧
            ∀ strand, client.sessions[1]? = some strand →
              strand.machine.handed <+:
                sentTo 1 (trace step (newClient [104] [52] [47]) events) := by
  have run : runFrom step (newClient [104] [52] [47])
      [.start true, .send [49], .start true, .send [50], .runPosted 1, .runPosted 0,
        .complete 1 (.resolve none), .complete 1 (.connect none true), .runPosted 1,
        .runPosted 0, .complete 1 (.tlsHandshake none), .complete 1 (.handshake none),
        .runPosted 0] = some _ := rfl
  exact ⟨_, _, run, rfl, rfl, fun strand found => (messages_routed run 1 strand found).1⟩

/-- Posting leaves every machine as it is. -/
theorem post_machine (client : Client) (event : WebSocketSession.Event) {index : Nat}
    {strand : Strand Session WebSocketSession.Event}
    (found : client.sessions[index]? = some strand) :
    ∃ after, (client.post event).sessions[index]? = some after ∧
      after.machine = strand.machine := by
  by_cases held : client.session = some index
  · rw [Client.post_held held, found]
    exact ⟨_, rfl, rfl⟩
  · rw [Client.post_other held]
    exact ⟨strand, found, rfl⟩

theorem onStrand_machine {client next : Client} {ranIndex : Nat}
    {runs : Strand Session WebSocketSession.Event →
      Option (Strand Session WebSocketSession.Event)}
    (steps : ∀ {strand after}, runs strand = some after →
      ∃ ran, WebSocketSession.step strand.machine ran = some after.machine)
    (ran : client.onStrand ranIndex runs = some next) {index : Nat}
    {strand : Strand Session WebSocketSession.Event}
    (found : client.sessions[index]? = some strand) :
    ∃ after, next.sessions[index]? = some after ∧
      (after.machine = strand.machine ∨
        ∃ ran, WebSocketSession.step strand.machine ran = some after.machine) := by
  obtain ⟨ranStrand, after, foundRan, stepped, rfl⟩ := Client.onStrand_eq_some_iff.mp ran
  dsimp only
  by_cases same : ranIndex = index
  · subst same
    obtain rfl : ranStrand = strand := Option.some_inj.mp (foundRan.symm.trans found)
    rw [List.getElem?_set_self (List.getElem?_eq_some_iff.mp found).1]
    exact ⟨after, rfl, .inr (steps stepped)⟩
  · rw [List.getElem?_set_ne same]
    exact ⟨strand, found, .inl rfl⟩

theorem run_machine {strand after : Strand Session WebSocketSession.Event}
    {event : WebSocketSession.Event}
    (ran : Strand.run WebSocketSession.step strand event = some after) :
    ∃ ran, WebSocketSession.step strand.machine ran = some after.machine := by
  obtain ⟨machine, stepped, rfl⟩ := Strand.run_eq_some_iff.mp ran
  exact ⟨event, stepped⟩

/-- A step of the client leaves a session as it is or is a step of it. -/
theorem step_machine {client next : Client} {event : Event}
    (stepped : step client event = some next) {index : Nat}
    {strand : Strand Session WebSocketSession.Event}
    (found : client.sessions[index]? = some strand) :
    ∃ after, next.sessions[index]? = some after ∧
      (after.machine = strand.machine ∨
        ∃ ran, WebSocketSession.step strand.machine ran = some after.machine) := by
  cases event with
  | start hasHandler =>
      obtain rfl : start client hasHandler = next := by simpa [step] using stepped
      obtain ⟨after, foundAfter, same⟩ := post_machine client .stop found
      have within := (List.getElem?_eq_some_iff.mp foundAfter).1
      refine ⟨after, ?_, .inl same⟩
      rw [start]
      exact (List.getElem?_append_left within).trans foundAfter
  | send message =>
      obtain rfl : send client message = next := by simpa [step] using stepped
      obtain ⟨after, foundAfter, same⟩ := post_machine client (.send message) found
      exact ⟨after, foundAfter, .inl same⟩
  | stop =>
      obtain rfl : stop client = next := by simpa [step] using stepped
      obtain ⟨after, foundAfter, same⟩ := post_machine client .stop found
      exact ⟨after, foundAfter, .inl same⟩
  | runPosted ranIndex =>
      refine onStrand_machine ?_ stepped found
      intro strand after ran
      obtain ⟨event, later, posted, ranEvent⟩ := Strand.runPosted_eq_some_iff.mp ran
      obtain ⟨ran, steppedMachine⟩ := run_machine ranEvent
      exact ⟨ran, steppedMachine⟩
  | complete ranIndex completion => exact onStrand_machine run_machine stepped found

/-- What a session has started and handled when it stops is all it ever will. -/
theorem stopped_stays {client final : Client} {events : List Event}
    (run : runFrom step client events = some final) {index : Nat}
    {strand : Strand Session WebSocketSession.Event}
    (found : client.sessions[index]? = some strand)
    (stopped : strand.machine.state = .stopped) :
    ∃ after, final.sessions[index]? = some after ∧ after.machine.state = .stopped ∧
      after.machine.started = strand.machine.started ∧
        after.machine.delivered = strand.machine.delivered := by
  have preserved : ∀ {state next : Client} {event : Event},
      (∃ after, state.sessions[index]? = some after ∧ after.machine.state = .stopped ∧
        after.machine.started = strand.machine.started ∧
          after.machine.delivered = strand.machine.delivered) →
        step state event = some next →
          ∃ after, next.sessions[index]? = some after ∧ after.machine.state = .stopped ∧
            after.machine.started = strand.machine.started ∧
              after.machine.delivered = strand.machine.delivered := by
    rintro state next event ⟨before, foundBefore, isStopped, startedEq, deliveredEq⟩ stepped
    obtain ⟨after, foundAfter, same | ⟨ran, steppedMachine⟩⟩ := step_machine stepped foundBefore
    · exact ⟨after, foundAfter, by rwa [same], by rwa [same], by rwa [same]⟩
    · obtain ⟨stays, started, delivered⟩ :=
        WebSocketSession.step_stopped isStopped steppedMachine
      exact ⟨after, foundAfter, stays, started.trans startedEq, delivered.trans deliveredEq⟩
  exact invariant_of_run preserved run ⟨strand, found, stopped, rfl, rfl⟩

/-- The client takes no session back. -/
theorem step_released {client next : Client} {event : Event}
    (stepped : step client event = some next) {index : Nat}
    (made : index < client.sessions.length) (released : client.session ≠ some index) :
    index < next.sessions.length ∧ next.session ≠ some index := by
  have runs : ∀ {ranIndex runs}, client.onStrand ranIndex runs = some next →
      index < next.sessions.length ∧ next.session ≠ some index := by
    intro ranIndex runs ran
    obtain ⟨strand, after, -, -, rfl⟩ := Client.onStrand_eq_some_iff.mp ran
    exact ⟨by rwa [List.length_set], released⟩
  cases event with
  | start hasHandler =>
      obtain rfl : start client hasHandler = next := by simpa [step] using stepped
      refine ⟨?_, fun held => ?_⟩
      · simp [start, stop]
        omega
      · have same : (stop client).sessions.length = index := Option.some_inj.mp held
        simp only [stop, Client.post_length] at same
        omega
  | send message =>
      obtain rfl : send client message = next := by simpa [step] using stepped
      exact ⟨by rwa [send, Client.post_length], released⟩
  | stop =>
      obtain rfl : stop client = next := by simpa [step] using stepped
      exact ⟨by rwa [stop, Client.post_length], fun held => by cases held⟩
  | runPosted ranIndex => exact runs stepped
  | complete ranIndex completion => exact runs stepped

/-- A session that the client no longer holds has stopped or has its `stop`
posted, and the client never takes it back.  From the stop on it starts no
operation and its handler is not called, whatever still runs on its strand. -/
theorem replaced_sessions_stop {host port target : Bytes} {events : List Event}
    {client : Client} (run : runFrom step (newClient host port target) events = some client) :
    ∀ index strand, client.sessions[index]? = some strand →
      (client.session ≠ some index →
        (strand.machine.state = .stopped ∨ .stop ∈ strand.posted) ∧
          ∀ later final, runFrom step client later = some final →
            final.session ≠ some index) ∧
      (strand.machine.state = .stopped → ∀ later final,
        runFrom step client later = some final →
          ∃ after, final.sessions[index]? = some after ∧ after.machine.state = .stopped ∧
            after.machine.started = strand.machine.started ∧
              after.machine.delivered = strand.machine.delivered) := by
  intro index strand found
  refine ⟨fun released => ⟨?_, fun later final continued => ?_⟩,
    fun stopped later final continued => stopped_stays continued found stopped⟩
  · obtain ⟨hasHandler, carries⟩ := (run_routed run).carries index strand found
    exact stopped_or_stop_mem carries released
  · have made := (List.getElem?_eq_some_iff.mp found).1
    have stays : index < final.sessions.length ∧ final.session ≠ some index := by
      refine invariant_of_run
        (fun before stepped => step_released stepped before.1 before.2) continued ?_
      exact ⟨made, released⟩
    exact stays.2

/-- The first of two sessions is stopped while it resolves, and the end of the
resolve changes nothing. -/
theorem replaced_sessions_stop_two :
    ∃ events client,
      runFrom step (newClient [104] [52] [47]) events = some client ∧
        client.session = some 1 ∧
          ∀ later final, runFrom step client later = some final →
            ∃ after, final.sessions[0]? = some after ∧ after.machine.delivered = [] := by
  have run : runFrom step (newClient [104] [52] [47])
      [.start true, .runPosted 0, .start true, .runPosted 0] = some _ := rfl
  refine ⟨_, _, run, rfl, fun later final continued => ?_⟩
  obtain ⟨after, found, -, -, delivered⟩ :=
    (replaced_sessions_stop run 0 _ rfl).2 rfl later final continued
  exact ⟨after, found, delivered⟩

end WebSocketClient

end ExchangeConnectivity
