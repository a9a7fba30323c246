import ExchangeConnectivity.StoppedStreams

/-!
# The course of the connector's sessions

The sessions of `binance_connector/networking/websocket_client.cpp` run on no
strand and keep no state; what orders their operations is that each callback
starts at most one.  Whatever the calls, also those a handler makes while it
runs, a session has one operation at a time, subscribes once before it reads,
and hands on its messages in the order in which they were read.
-/

namespace ExchangeConnectivity

open ActionRuns ByteStrings

namespace Connector

/-- The operations started whose callbacks have not run. -/
def Session.outstanding (session : Session) : List Operation :=
  session.pending ++ session.queued.map Completion.operation

def Session.operations (session : Session) : List Operation :=
  session.started.map Prod.snd

def Session.messages (session : Session) : List Bytes :=
  session.handled.map Prod.snd

/-- The operations before the first read. -/
def subscribing (streamName : Bytes) : List Operation :=
  [.resolve, .connect, .tlsHandshake, .handshake, .write (subscriptionText streamName)]

/-- The operations of a session that has started so many reads. -/
def reading (streamName : Bytes) (reads : Nat) : List Operation :=
  subscribing streamName ++ List.replicate reads .read

/-- The operations up to one of them, where a read comes after so many
messages. -/
def through (streamName : Bytes) (messages : Nat) : Operation → List Operation
  | .resolve => [.resolve]
  | .connect => [.resolve, .connect]
  | .tlsHandshake => [.resolve, .connect, .tlsHandshake]
  | .handshake => [.resolve, .connect, .tlsHandshake, .handshake]
  | .write _ => subscribing streamName
  | .read => reading streamName (messages + 1)

theorem reading_isPrefix (streamName : Bytes) {reads later : Nat} (earlier : reads ≤ later) :
    reading streamName reads <+: reading streamName later := by
  rw [reading, reading, List.prefix_append_right_inj]
  exact ⟨List.replicate (later - reads) .read, by
    rw [List.replicate_append_replicate, Nat.add_sub_cancel' earlier]⟩

theorem through_isPrefix (streamName : Bytes) (messages : Nat) (operation : Operation) :
    through streamName messages operation <+: reading streamName (messages + 1) := by
  cases operation with
  | read => exact List.prefix_rfl
  | resolve => exact ⟨_, rfl⟩
  | connect => exact ⟨_, rfl⟩
  | tlsHandshake => exact ⟨_, rfl⟩
  | handshake => exact ⟨_, rfl⟩
  | write _ => exact ⟨_, rfl⟩

/-- The session has got as far as this operation, and messages come only from
reads. -/
structure Reached (session : Session) (operation : Operation) : Prop where
  operations_eq : session.operations =
    through session.streamName session.messages.length operation
  silent : operation ≠ .read → session.messages = []

/-- A session waits for the operation it has started last, or has come to its
end somewhere on the way. -/
inductive OnCourse (session : Session) : Prop
  | waiting (operation : Operation) (outstandingEq : session.outstanding = [operation])
      (reached : Reached session operation)
  | ended (outstandingEq : session.outstanding = [])
      (operationsEq : session.operations <+:
        reading session.streamName (session.messages.length + 1))

theorem OnCourse.one_operation {session : Session} (onCourse : OnCourse session) :
    session.outstanding.length ≤ 1 := by
  cases onCourse with
  | waiting operation outstandingEq => simp [outstandingEq]
  | ended outstandingEq => simp [outstandingEq]

theorem OnCourse.in_order {session : Session} (onCourse : OnCourse session) :
    session.operations <+: reading session.streamName (session.messages.length + 1) := by
  cases onCourse with
  | waiting operation _ reached =>
      rw [reached.operations_eq]
      exact through_isPrefix _ _ operation
  | ended _ operationsEq => exact operationsEq

theorem onCourse_start (feed : Feed) (streamName : Bytes) :
    OnCourse (Session.start { feed, streamName }) :=
  .waiting .resolve rfl ⟨rfl, fun _ => rfl⟩

/-- Closing the socket completes the operation that is pending on it. -/
theorem stop_outstanding {session : Session} (limited : session.outstanding.length ≤ 1) :
    session.stop.outstanding = session.outstanding := by
  simp only [Session.outstanding, Session.stop] at limited ⊢
  cases pending : session.pending with
  | nil => simp
  | cons operation rest =>
      simp only [pending, List.cons_append, List.length_cons, List.length_append,
        List.length_map] at limited
      obtain rfl : rest = [] := List.eq_nil_of_length_eq_zero (by omega)
      have unqueued : session.queued = [] := List.eq_nil_of_length_eq_zero (by omega)
      cases operation <;> simp [unqueued, Operation.aborted, Completion.operation]

theorem OnCourse.release {session : Session} (onCourse : OnCourse session) :
    OnCourse session.release := by
  have outstanding : session.release.outstanding = session.outstanding :=
    stop_outstanding onCourse.one_operation
  cases onCourse with
  | waiting operation outstandingEq reached =>
      exact .waiting operation (outstanding.trans outstandingEq)
        ⟨reached.operations_eq, reached.silent⟩
  | ended outstandingEq operationsEq =>
      exact .ended (outstanding.trans outstandingEq) operationsEq

theorem OnCourse.complete {session : Session} (onCourse : OnCourse session)
    {completion : Completion} (pending : completion.operation ∈ session.pending) :
    OnCourse (session.complete completion) := by
  cases onCourse with
  | waiting operation outstandingEq reached =>
      rw [Session.outstanding, List.append_eq_singleton_iff] at outstandingEq
      rcases outstandingEq with ⟨nothing, -⟩ | ⟨pendingEq, unqueued⟩
      · simp [nothing] at pending
      · obtain rfl : completion.operation = operation := by simpa [pendingEq] using pending
        rw [List.map_eq_nil_iff] at unqueued
        refine .waiting completion.operation ?_ ⟨reached.operations_eq, reached.silent⟩
        simp [Session.outstanding, Session.complete, pendingEq, unqueued]
  | ended outstandingEq operationsEq =>
      rw [Session.outstanding, List.append_eq_nil_iff] at outstandingEq
      simp [outstandingEq.1] at pending

/-- A completion about to run is that of the operation the session waits for. -/
theorem OnCourse.dequeue {session : Session} (onCourse : OnCourse session)
    {completion : Completion} (queued : completion ∈ session.queued) :
    (session.dequeue completion).outstanding = [] ∧
      Reached (session.dequeue completion) completion.operation := by
  cases onCourse with
  | waiting operation outstandingEq reached =>
      rw [Session.outstanding, List.append_eq_singleton_iff] at outstandingEq
      rcases outstandingEq with ⟨nothing, queuedEq⟩ | ⟨-, unqueued⟩
      · obtain ⟨only, queuedOnly, rfl⟩ := List.map_eq_singleton_iff.mp queuedEq
        obtain rfl : completion = only := by simpa [queuedOnly] using queued
        refine ⟨?_, reached.operations_eq, reached.silent⟩
        simp [Session.outstanding, Session.dequeue, nothing, queuedOnly]
      · rw [List.map_eq_nil_iff] at unqueued
        simp [unqueued] at queued
  | ended outstandingEq operationsEq =>
      rw [Session.outstanding, List.append_eq_nil_iff, List.map_eq_nil_iff] at outstandingEq
      simp [outstandingEq.2] at queued

section Callbacks

variable {session : Session} {operation : Operation}

theorem Reached.ended (reached : Reached session operation)
    (quiet : session.outstanding = []) : OnCourse session := by
  refine .ended quiet ?_
  rw [reached.operations_eq]
  exact through_isPrefix _ _ operation

theorem Reached.reportError (reached : Reached session operation)
    (quiet : session.outstanding = []) (text : String) (error : WebSocketSession.ErrorCode) :
    OnCourse (session.reportError text error) := by
  rw [Session.reportError]
  split
  · exact Reached.ended ⟨reached.operations_eq, reached.silent⟩ quiet
  · exact reached.ended quiet

/-- A callback that goes on starts the operation that is next. -/
theorem onCourse_startOperation (quiet : session.outstanding = []) {following : Operation}
    (follows : session.operations ++ [following] =
      through session.streamName session.messages.length following)
    (silent : following ≠ .read → session.messages = []) :
    OnCourse (session.startOperation following) := by
  rw [Session.outstanding, List.append_eq_nil_iff, List.map_eq_nil_iff] at quiet
  refine .waiting following ?_ ⟨?_, silent⟩
  · simp [Session.outstanding, Session.startOperation, quiet.1, quiet.2]
  · refine Eq.trans ?_ follows
    simp [Session.operations, Session.startOperation]

/-- After a stage there are no messages yet. -/
theorem Reached.next (reached : Reached session operation) (notRead : operation ≠ .read)
    (quiet : session.outstanding = []) {following : Operation}
    (follows : through session.streamName 0 operation ++ [following] =
      through session.streamName 0 following) :
    OnCourse (session.startOperation following) := by
  have silent := reached.silent notRead
  refine onCourse_startOperation quiet ?_ fun _ => silent
  have operationsEq := reached.operations_eq
  rw [silent] at operationsEq ⊢
  rw [operationsEq]
  exact follows

theorem callback_onCourse {completion : Completion}
    (reached : Reached session completion.operation) (quiet : session.outstanding = [])
    (notMessage : ∀ message, completion ≠ .read (.ok message)) :
    OnCourse (session.callback completion) := by
  cases completion with
  | resolve error =>
      cases error with
      | some error => exact reached.reportError quiet _ error
      | none => exact reached.next (by simp [Completion.operation]) quiet rfl
  | connect error serverNameSet =>
      cases error with
      | some error => exact reached.reportError quiet _ error
      | none =>
          cases serverNameSet with
          | true => exact reached.next (by simp [Completion.operation]) quiet rfl
          | false =>
              have stopped : ∀ later : Session, later.outstanding = [] →
                  later.operations = session.operations → later.messages = session.messages →
                    later.streamName = session.streamName → OnCourse later := by
                intro later ended same silent name
                refine .ended ended ?_
                rw [same, silent, name, reached.operations_eq]
                exact through_isPrefix _ _ _
              refine stopped _ ?_ rfl rfl rfl
              rw [← quiet]
              have limited : session.outstanding.length ≤ 1 := by simp [quiet]
              exact stop_outstanding limited
  | tlsHandshake error =>
      cases error with
      | some error => exact reached.reportError quiet _ error
      | none => exact reached.next (by simp [Completion.operation]) quiet rfl
  | handshake error =>
      cases error with
      | some error => exact reached.reportError quiet _ error
      | none =>
          have subscribed : Reached
              { session with subscription := subscriptionText session.streamName } .handshake :=
            ⟨reached.operations_eq, reached.silent⟩
          exact subscribed.next (by simp) quiet rfl
  | write subscription error =>
      cases error with
      | some error => exact reached.reportError quiet _ error
      | none => exact reached.next (by simp [Completion.operation]) quiet rfl
  | read result =>
      cases result with
      | ok message => exact absurd rfl (notMessage message)
      | error error =>
          rw [Session.callback]
          split
          · exact reached.reportError quiet _ error
          · exact reached.ended quiet

end Callbacks

/-- The stream that a feed of the symbol subscribes to. -/
def Feed.streamName (symbol : Bytes) : Feed → Bytes
  | .depth => symbol ++ ascii "@depth@100ms"
  | .trades => symbol ++ ascii "@trade"

/-- A property of sessions by their places that a stop keeps and that new
sessions of the symbol have; places below `bound` are taken. -/
structure Kept (symbol : Bytes) (bound : Nat) (property : Nat → Session → Prop) : Prop where
  release : ∀ index session, property index session → property index session.release
  start : ∀ index (feed : Feed), bound ≤ index →
    property index (Session.start { feed, streamName := feed.streamName symbol })

/-- The property holds of every session, and the places below `bound` are
taken. -/
structure Everywhere (bound : Nat) (property : Nat → Session → Prop)
    (sessions : List Session) : Prop where
  holds : ∀ index session, sessions[index]? = some session → property index session
  bound_le : bound ≤ sessions.length

section Calls

variable {symbol : Bytes} {bound : Nat} {property : Nat → Session → Prop}
  {sessions : List Session} (kept : Kept symbol bound property)

theorem Everywhere.modify (everywhere : Everywhere bound property sessions) {position : Nat}
    {change : Session → Session}
    (changes : ∀ session, sessions[position]? = some session → property position (change session)) :
    Everywhere bound property (sessions.modify position change) := by
  refine ⟨fun index session found => ?_, by rw [List.length_modify]; exact everywhere.bound_le⟩
  rw [List.getElem?_modify] at found
  by_cases here : position = index
  · subst here
    simp only [if_true, Option.map_eq_map, Option.map_eq_some_iff] at found
    obtain ⟨before, foundBefore, rfl⟩ := found
    exact changes before foundBefore
  · simp only [here, if_false, Option.map_eq_map, Option.map_id'] at found
    exact everywhere.holds index session found

include kept

theorem Everywhere.clientStop (everywhere : Everywhere bound property sessions)
    (client : WebSocketClient) : Everywhere bound property (client.stop sessions).1 := by
  rw [WebSocketClient.stop]
  cases client.session with
  | none => exact everywhere
  | some position =>
      exact everywhere.modify fun session found =>
        kept.release position session (everywhere.holds position session found)

theorem Everywhere.clientStart (everywhere : Everywhere bound property sessions)
    (client : WebSocketClient) (feed : Feed)
    (isStream : client.streamName = feed.streamName symbol) :
    Everywhere bound property (client.start sessions feed).1 := by
  have stopped := everywhere.clientStop kept client
  refine ⟨fun index session found => ?_, ?_⟩
  · rw [WebSocketClient.start] at found
    rcases Nat.lt_trichotomy index (client.stop sessions).1.length with before | rfl | after
    · rw [List.getElem?_append_left before] at found
      exact stopped.holds index session found
    · rw [List.getElem?_concat_length, Option.some_inj] at found
      have sameName : (client.stop sessions).2.streamName = client.streamName := by
        rw [WebSocketClient.stop]
        cases client.session <;> rfl
      rw [← found, sameName, isStream]
      exact kept.start _ feed stopped.bound_le
    · have bounded := (List.getElem?_eq_some_iff.mp found).1
      rw [List.length_append, List.length_singleton] at bounded
      omega
  · rw [WebSocketClient.start, List.length_append]
    exact Nat.le_add_right_of_le stopped.bound_le

theorem Everywhere.streamStop {Update : Type} (everywhere : Everywhere bound property sessions)
    (stream : Stream Update) : Everywhere bound property (stream.stop sessions).1 := by
  rw [Stream.stop]
  cases stream.client with
  | none => exact everywhere
  | some client => exact everywhere.clientStop kept client

theorem Everywhere.streamStart {Update : Type} (everywhere : Everywhere bound property sessions)
    (stream : Stream Update) (feed : Feed) (hasHandler : Bool) :
    Everywhere bound property
      (stream.start sessions feed (feed.streamName symbol) hasHandler).1 := by
  rw [Stream.start]
  exact (everywhere.streamStop kept stream).clientStart kept
    { streamName := feed.streamName symbol } feed rfl

omit kept in
theorem call_symbol (streams : Streams) (event : Call) :
    (call streams event).symbol = streams.symbol := by
  cases event <;> rfl

theorem call_everywhere {streams : Streams} (isSymbol : streams.symbol = symbol)
    (everywhere : Everywhere bound property streams.sessions) (event : Call) :
    Everywhere bound property (call streams event).sessions := by
  subst isSymbol
  cases event with
  | startDepth hasHandler => exact everywhere.streamStart kept _ .depth hasHandler
  | startTrades hasHandler => exact everywhere.streamStart kept _ .trades hasHandler
  | stopDepth => exact everywhere.streamStop kept _
  | stopTrades => exact everywhere.streamStop kept _
  | stop => exact (everywhere.streamStop kept _).streamStop kept _

theorem calls_everywhere (calls : List Call) {streams : Streams}
    (isSymbol : streams.symbol = symbol)
    (everywhere : Everywhere bound property streams.sessions) :
    Everywhere bound property (calls.foldl call streams).sessions := by
  induction calls generalizing streams with
  | nil => exact everywhere
  | cons event calls ih =>
      exact ih ((call_symbol streams event).trans isSymbol)
        (call_everywhere kept isSymbol everywhere event)

theorem onMessage_everywhere (boost : BoostJson.Library) {streams : Streams}
    (isSymbol : streams.symbol = symbol)
    (everywhere : Everywhere bound property streams.sessions) (feed : Feed) (index : Nat)
    (message : Bytes) (handling : Handling) :
    Everywhere bound property
      (onMessage boost streams feed index message handling).1.sessions := by
  cases feed with
  | depth =>
      rw [onMessage, onDepthMessage]
      split
      · exact calls_everywhere kept handling.calls isSymbol everywhere
      · exact everywhere
  | trades =>
      rw [onMessage, onTradeMessage]
      split
      · exact calls_everywhere kept handling.calls isSymbol everywhere
      · exact everywhere

end Calls

section Steps

variable (boost : BoostJson.Library)

/-- The message a step reads on the session. -/
def messageRead (index : Nat) : Event → List Bytes
  | .run position (.read (.ok message)) _ => if position = index then [message] else []
  | _ => []

/-- The messages read on the session. -/
def messagesRead (index : Nat) (past : List (Streams × Event)) : List Bytes :=
  past.flatMap fun taken => messageRead index taken.2

/-- The session is on course and has handed on these messages. -/
def HandsOn (messages : Nat → List Bytes) (index : Nat) (session : Session) : Prop :=
  OnCourse session ∧ session.messages = messages index

/-- All sessions are on course and have handed on what they have read. -/
def InCourse (messages : Nat → List Bytes) (streams : Streams) : Prop :=
  (∀ index session, streams.sessions[index]? = some session → HandsOn messages index session) ∧
    ∀ index, streams.sessions.length ≤ index → messages index = []

theorem kept_handsOn {messages : Nat → List Bytes} {bound : Nat} (symbol : Bytes)
    (unread : ∀ index, bound ≤ index → messages index = []) :
    Kept symbol bound (HandsOn messages) where
  release := fun _ _ handsOn => ⟨handsOn.1.release, handsOn.2⟩
  start := fun index feed new =>
    ⟨onCourse_start feed (feed.streamName symbol), (unread index new).symm⟩

variable {messages : Nat → List Bytes} {streams : Streams}

theorem InCourse.everywhere (inCourse : InCourse messages streams) :
    Everywhere streams.sessions.length (HandsOn messages) streams.sessions :=
  ⟨inCourse.1, le_rfl⟩

theorem inCourse_of_everywhere {bound : Nat} {after : Streams}
    (everywhere : Everywhere bound (HandsOn messages) after.sessions)
    (unread : ∀ index, bound ≤ index → messages index = []) : InCourse messages after :=
  ⟨everywhere.holds, fun index beyond => unread index (Nat.le_trans everywhere.bound_le beyond)⟩

/-- The messages with one more read on a session. -/
def readOn (position : Nat) (message : Bytes) (messages : Nat → List Bytes) (index : Nat) :
    List Bytes :=
  messages index ++ if position = index then [message] else []

/-- While the message handler of a session runs, the session has no operation,
and it has started as many reads as it has handed on messages. -/
def InHandler (position index : Nat) (session : Session) : Prop :=
  position = index → session.outstanding = [] ∧
    session.operations = reading session.streamName session.messages.length

theorem InHandler.release {position index : Nat} {session : Session}
    (inHandler : InHandler position index session) : InHandler position index session.release := by
  intro here
  obtain ⟨quiet, operationsEq⟩ := inHandler here
  have limited : session.outstanding.length ≤ 1 := by simp [quiet]
  exact ⟨(stop_outstanding limited).trans quiet, operationsEq⟩

/-- The callback of a successful read. -/
theorem onRead_everywhere {position : Nat} {session : Session}
    (everywhere : Everywhere streams.sessions.length (HandsOn messages) streams.sessions)
    (unread : ∀ index, streams.sessions.length ≤ index → messages index = [])
    (found : streams.sessions[position]? = some session) (quiet : session.outstanding = [])
    (reached : Reached session .read) (message : Bytes) (handling : Handling) :
    Everywhere streams.sessions.length (HandsOn (readOn position message messages))
      (onRead boost streams position session.feed message handling).sessions := by
  have taken := (List.getElem?_eq_some_iff.mp found).1
  have kept : Kept streams.symbol streams.sessions.length fun index session =>
      HandsOn (readOn position message messages) index session ∧
        InHandler position index session := by
    refine ⟨fun index session both => ⟨⟨both.1.1.release, both.1.2⟩, both.2.release⟩, ?_⟩
    intro index feed new
    refine ⟨⟨onCourse_start feed _, ?_⟩, ?_⟩
    · rw [readOn, unread index new, if_neg (by omega)]
      rfl
    · intro here
      omega
  have handled : Everywhere streams.sessions.length
      (fun index session => HandsOn (readOn position message messages) index session ∧
        InHandler position index session)
      (streams.modify position (Session.handle · message)).sessions := by
    refine ⟨fun index other foundOther => ?_, ?_⟩
    · rw [Streams.modify, List.getElem?_modify] at foundOther
      by_cases here : position = index
      · subst here
        simp only [found, if_true, Option.map_eq_map, Option.map_some,
          Option.some_inj] at foundOther
        subst foundOther
        have messagesEq : (session.handle message).messages = session.messages ++ [message] := by
          simp [Session.messages, Session.handle]
        have operationsEq : (session.handle message).operations =
            reading session.streamName (session.messages ++ [message]).length := by
          rw [List.length_append]
          exact reached.operations_eq
        refine ⟨⟨.ended quiet ?_, ?_⟩, fun _ => ⟨quiet, ?_⟩⟩
        · rw [operationsEq, messagesEq]
          exact reading_isPrefix _ (Nat.le_succ _)
        · rw [messagesEq, readOn, if_pos rfl, (everywhere.holds position session found).2]
        · rw [messagesEq]
          exact operationsEq
      · simp only [here, if_false, Option.map_eq_map, Option.map_id'] at foundOther
        obtain ⟨onCourse, messagesEq⟩ := everywhere.holds index other foundOther
        refine ⟨⟨onCourse, ?_⟩, fun same => absurd same here⟩
        rw [readOn, if_neg here, List.append_nil, messagesEq]
    · rw [Streams.modify, List.length_modify]
  have sameSymbol : (streams.modify position (Session.handle · message)).symbol =
      streams.symbol := rfl
  have after := onMessage_everywhere kept boost sameSymbol handled session.feed position message
    handling
  rw [onRead]
  cases returned : onMessage boost (streams.modify position (Session.handle · message))
      session.feed position message handling with
  | mk later returns =>
      rw [returned] at after
      cases returns with
      | false => exact ⟨fun index other foundOther => (after.holds index other foundOther).1,
          after.bound_le⟩
      | true =>
          have weaker : Everywhere streams.sessions.length
              (HandsOn (readOn position message messages)) later.sessions :=
            ⟨fun index other foundOther => (after.holds index other foundOther).1,
              after.bound_le⟩
          refine weaker.modify fun before foundBefore => ?_
          obtain ⟨⟨-, messagesEq⟩, inHandler⟩ := after.holds position before foundBefore
          obtain ⟨ended, operationsEq⟩ := inHandler rfl
          refine ⟨onCourse_startOperation ended ?_ (absurd rfl), messagesEq⟩
          rw [operationsEq, through, reading, reading, List.replicate_succ',
            List.append_assoc]

theorem runCompletion_everywhere {position : Nat} {session : Session} {completion : Completion}
    (everywhere : Everywhere streams.sessions.length (HandsOn messages) streams.sessions)
    (unread : ∀ index, streams.sessions.length ≤ index → messages index = [])
    (found : streams.sessions[position]? = some session) (quiet : session.outstanding = [])
    (reached : Reached session completion.operation) (handling : Handling) :
    Everywhere streams.sessions.length
      (HandsOn fun index => messages index ++
        messageRead index (.run position completion handling))
      (runCompletion boost streams position session.feed completion handling).sessions := by
  by_cases isMessage : ∃ message, completion = .read (.ok message)
  · obtain ⟨message, rfl⟩ := isMessage
    exact onRead_everywhere boost everywhere unread found quiet reached message handling
  · have notMessage : ∀ message, completion ≠ .read (.ok message) := not_exists.mp isMessage
    have nothing : ∀ index, messageRead index (.run position completion handling) = [] := by
      intro index
      rw [messageRead]
      rintro _ message _ ⟨⟩
      exact notMessage message rfl
    simp only [nothing, List.append_nil]
    have run : runCompletion boost streams position session.feed completion handling =
        streams.modify position (Session.callback · completion) := by
      rw [runCompletion]
      exact notMessage
    rw [run]
    refine everywhere.modify fun before foundBefore => ?_
    obtain rfl : session = before := Option.some_inj.mp (found.symm.trans foundBefore)
    refine ⟨callback_onCourse reached quiet notMessage, ?_⟩
    rw [Session.messages, (callback_keeps session completion).2.2]
    exact (everywhere.holds position session found).2

theorem step_inCourse {next : Streams} {event : Event} (inCourse : InCourse messages streams)
    (stepped : step boost streams event = some next) :
    InCourse (fun index => messages index ++ messageRead index event) next := by
  have everywhere := inCourse.everywhere
  cases event with
  | call event =>
      obtain rfl : call streams event = next := by simpa [step] using stepped
      simp only [messageRead, List.append_nil]
      exact inCourse_of_everywhere (call_everywhere (kept_handsOn streams.symbol inCourse.2) rfl
        everywhere event) inCourse.2
  | complete position completion =>
      obtain ⟨session, found, pending, rfl⟩ := (step_complete_eq_some_iff boost).mp stepped
      simp only [messageRead, List.append_nil]
      refine inCourse_of_everywhere (everywhere.modify fun before foundBefore => ?_) inCourse.2
      obtain rfl : session = before := Option.some_inj.mp (found.symm.trans foundBefore)
      obtain ⟨onCourse, messagesEq⟩ := inCourse.1 position session found
      exact ⟨onCourse.complete pending, messagesEq⟩
  | run position completion handling =>
      obtain ⟨session, found, queued, rfl⟩ := (step_run_eq_some_iff boost).mp stepped
      obtain ⟨onCourse, messagesEq⟩ := inCourse.1 position session found
      obtain ⟨quiet, reached⟩ := onCourse.dequeue queued
      have dequeued : Everywhere streams.sessions.length (HandsOn messages)
          (streams.modify position (Session.dequeue · completion)).sessions := by
        refine everywhere.modify fun before foundBefore => ?_
        obtain rfl : session = before := Option.some_inj.mp (found.symm.trans foundBefore)
        exact ⟨reached.ended quiet, messagesEq⟩
      have lengthEq : (streams.modify position (Session.dequeue · completion)).sessions.length =
          streams.sessions.length := List.length_modify _ _ _
      rw [← lengthEq] at dequeued
      have after := runCompletion_everywhere boost dequeued (lengthEq ▸ inCourse.2)
        (modify_getElem found (Session.dequeue · completion)) quiet reached handling
      refine inCourse_of_everywhere after fun index beyond => ?_
      rw [lengthEq] at beyond
      have taken := (List.getElem?_eq_some_iff.mp found).1
      have apart : position ≠ index := by omega
      rw [inCourse.2 index beyond, List.nil_append]
      cases completion with
      | read result => cases result <;> simp [messageRead, apart]
      | resolve | connect | tlsHandshake | handshake | write => rfl

theorem run_inCourse {symbol : Bytes} {events : List Event}
    (run : runFrom (step boost) (newStreams symbol) events = some streams) :
    InCourse (fun index => messagesRead index (trace (step boost) (newStreams symbol) events))
      streams := by
  refine invariant_of_trace
    (fun past streams => InCourse (fun index => messagesRead index past) streams) ?_ run
    ⟨fun _ _ found => by simp [newStreams] at found, fun _ _ => rfl⟩
  intro past before next event inCourse stepped
  simpa [messagesRead] using step_inCourse boost inCourse stepped

/-- Whatever completes when and whatever is called, also by a handler while it
runs, no two operations of a session overlap; it makes its connection stage by
stage, writes its subscription once and reads only after it, one read for each
message handed on and at most one more; and it hands on the messages it has
read, in their order. -/
theorem sessions_on_course {symbol : Bytes} {events : List Event}
    (run : runFrom (step boost) (newStreams symbol) events = some streams) :
    ∀ index session, streams.sessions[index]? = some session →
      session.outstanding.length ≤ 1 ∧
        session.operations <+:
          reading session.streamName (session.messages.length + 1) ∧
        session.messages =
          messagesRead index (trace (step boost) (newStreams symbol) events) := by
  intro index session found
  obtain ⟨onCourse, messagesEq⟩ := (run_inCourse boost run).1 index session found
  exact ⟨onCourse.one_operation, onCourse.in_order, messagesEq⟩

end Steps

/-- A handler that starts the other stream and stops its own: the session goes
on reading. -/
theorem sessions_on_course_two :
    ∃ events streams,
      runFrom (step emptyUpdates) (newStreams [98]) events = some streams ∧
        streams.sessions.map (fun session => session.operations.length) = [7, 1] ∧
          ∀ session, streams.sessions[0]? = some session →
            session.outstanding.length ≤ 1 := by
  let completions : List Completion :=
    [.resolve none, .connect none true, .tlsHandshake none, .handshake none,
      .write (subscriptionText ([98] ++ ascii "@depth@100ms")) none, .read (.ok [7])]
  let events : List Event := .call (.startDepth true) :: completions.flatMap fun completion =>
    [.complete 0 completion,
      .run 0 completion { calls := [.startTrades false, .stopDepth], returns := true }]
  have run : runFrom (step emptyUpdates) (newStreams [98]) events = some _ := rfl
  exact ⟨events, _, run, rfl, fun session found =>
    (sessions_on_course _ run 0 session found).1⟩

end Connector

end ExchangeConnectivity
