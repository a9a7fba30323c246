import ExchangeConnectivity.ConnectorStreams

/-!
# When a stop silences a session

`WebSocketClient::stop` closes the socket but neither cancels a resolve nor
marks the session, so a completion that succeeds after the stop carries the
session on, and its messages reach whatever handler is installed then.  The
stops are obeyed throughout a run exactly when no such completion runs and no
handler that stops its own stream returns to the session.
-/

namespace ExchangeConnectivity

open ActionRuns ByteStrings FailingComputations

namespace Connector

open WebSocketSession (ErrorCode)

/-- The session has started no operation and handled no message after its
stop. -/
def Session.Quiet (session : Session) : Prop :=
  (∀ entry ∈ session.started, entry.1 = false) ∧ ∀ entry ∈ session.handled, entry.1 = false

/-- Every session falls silent with its stop, and every update comes from the
session made by the call that installed the handler. -/
def Obeyed (streams : Streams) : Prop :=
  (∀ session ∈ streams.sessions, session.Quiet) ∧
    (∀ entry ∈ streams.depth.updates, entry.1 = entry.2.1) ∧
      ∀ entry ∈ streams.trades.updates, entry.1 = entry.2.1

/-- The completion reports success, and the callback goes on. -/
def Completion.proceeds : Completion → Bool
  | .resolve error | .tlsHandshake error | .handshake error | .write _ error => error.isNone
  | .connect error serverNameSet => error.isNone && serverNameSet
  | .read result => result.isOk

def Call.stops : Call → Feed → Bool
  | .startDepth _, feed | .stopDepth, feed => feed = .depth
  | .startTrades _, feed | .stopTrades, feed => feed = .trades
  | .stop, _ => true

section Messages

variable (boost : BoostJson.Library)

/-- A message of the feed reaches a handler. -/
def Delivers (streams : Streams) (message : Bytes) : Feed → Prop
  | .depth =>
      ∃ entry, streams.depth.received boost (parseDepthUpdate boost) message = .ok (some entry)
  | .trades =>
      ∃ entry, streams.trades.received boost (parseTrade boost) message = .ok (some entry)

/-- No completion carries on a stopped session, and a handler that stops or
restarts its own stream does not return to the session. -/
def LeavesStopped (streams : Streams) : Event → Prop
  | .run index completion handling =>
      ∀ session, streams.sessions[index]? = some session →
        (session.stopped = true → completion.proceeds = false) ∧
          (session.stopped = false → ∀ message, completion = .read (.ok message) →
            Delivers boost streams message session.feed → handling.returns = true →
              ∀ call ∈ handling.calls, call.stops session.feed = false)
  | _ => True

end Messages

/-- A session of the feed that has not been stopped. -/
def Live (feed : Feed) (sessions : List Session) (index : Nat) : Prop :=
  ∃ session, sessions[index]? = some session ∧ session.feed = feed ∧ session.stopped = false

def Stream.session {Update : Type} (stream : Stream Update) : Option Nat :=
  stream.client.bind WebSocketClient.session

/-- The session of the client is the only one of its feed not stopped, and the
handler is the one installed with it. -/
structure Stream.Current {Update : Type} (feed : Feed) (sessions : List Session)
    (stream : Stream Update) : Prop where
  live_iff : ∀ index, Live feed sessions index ↔ stream.session = some index
  session_of_handler : ∀ index, stream.handler = some index → stream.session = some index

structure Current (streams : Streams) : Prop where
  depth : streams.depth.Current .depth streams.sessions
  trades : streams.trades.Current .trades streams.sessions

/-- What a stop of the feed does to a session. -/
def Session.stopFeed (feed : Feed) (session : Session) : Session :=
  if session.feed = feed ∧ session.stopped = false then session.release else session

theorem stopFeed_feed (feed : Feed) (session : Session) :
    (session.stopFeed feed).feed = session.feed := by
  rw [Session.stopFeed]
  split <;> rfl

theorem live_modify_iff {feed : Feed} {sessions : List Session} {index position : Nat}
    {change : Session → Session}
    (keeps : ∀ session, (change session).feed = session.feed ∧
      (change session).stopped = session.stopped) :
    Live feed (sessions.modify position change) index ↔ Live feed sessions index := by
  simp only [Live, List.getElem?_modify]
  cases sessions[index]? with
  | none => simp
  | some session =>
      by_cases here : position = index <;> simp [here, keeps session]

theorem not_live_stopFeed (feed : Feed) (sessions : List Session) (index : Nat) :
    ¬ Live feed (sessions.map (Session.stopFeed feed)) index := by
  rintro ⟨session, found, isFeed, unstopped⟩
  rw [List.getElem?_map, Option.map_eq_some_iff] at found
  obtain ⟨before, _, rfl⟩ := found
  rw [stopFeed_feed] at isFeed
  rw [Session.stopFeed] at unstopped
  split at unstopped
  · simp [Session.release] at unstopped
  next live => exact live ⟨isFeed, unstopped⟩

theorem live_stopFeed_of_ne {feed other : Feed} (different : feed ≠ other)
    (sessions : List Session) (index : Nat) :
    Live feed (sessions.map (Session.stopFeed other)) index ↔ Live feed sessions index := by
  simp only [Live, List.getElem?_map]
  cases sessions[index]? with
  | none => simp
  | some session =>
      by_cases isFeed : session.feed = feed
      · have untouched : session.stopFeed other = session := by
          rw [Session.stopFeed, if_neg]
          rw [isFeed]
          exact fun both => different both.1
        simp [untouched]
      · simp [stopFeed_feed, isFeed]

theorem live_append_iff (feed : Feed) (sessions : List Session) (created : Session)
    (unstopped : created.stopped = false) (index : Nat) :
    Live feed (sessions ++ [created]) index ↔
      Live feed sessions index ∨ (index = sessions.length ∧ created.feed = feed) := by
  rcases Nat.lt_trichotomy index sessions.length with before | rfl | after
  · simp [Live, List.getElem?_append_left before, Nat.ne_of_lt before]
  · simp [Live, unstopped]
  · have outside : (sessions ++ [created])[index]? = none := by
      rw [List.getElem?_eq_none_iff, List.length_append, List.length_singleton]
      exact after
    have outsideBefore : sessions[index]? = none :=
      List.getElem?_eq_none (Nat.le_of_lt after)
    simp [Live, outside, outsideBefore, Nat.ne_of_gt after]

theorem stopFeed_of_not_live {feed : Feed} {sessions : List Session} {index : Nat}
    {session : Session} (found : sessions[index]? = some session)
    (notLive : ¬ Live feed sessions index) : session.stopFeed feed = session := by
  rw [Session.stopFeed, if_neg]
  rintro ⟨isFeed, unstopped⟩
  exact notLive ⟨session, found, isFeed, unstopped⟩

section Calls

variable {Update : Type} {feed : Feed} {sessions : List Session} {stream : Stream Update}

theorem Stream.Current.map_stopFeed_of_none (current : stream.Current feed sessions)
    (noSession : stream.session = none) : sessions.map (Session.stopFeed feed) = sessions := by
  refine List.ext_getElem? fun index => ?_
  rw [List.getElem?_map]
  cases found : sessions[index]? with
  | none => rfl
  | some session =>
      rw [Option.map_some, stopFeed_of_not_live found]
      rw [current.live_iff, noSession]
      exact nofun

theorem Stream.Current.map_stopFeed_of_some (current : stream.Current feed sessions)
    {position : Nat} (isSession : stream.session = some position) :
    sessions.map (Session.stopFeed feed) = sessions.modify position Session.release := by
  refine List.ext_getElem? fun index => ?_
  rw [List.getElem?_map, List.getElem?_modify]
  cases found : sessions[index]? with
  | none => rfl
  | some session =>
      by_cases here : position = index
      · subst here
        obtain ⟨live, liveFound, liveFeed⟩ := (current.live_iff position).mpr isSession
        obtain rfl : session = live := Option.some.inj (found.symm.trans liveFound)
        simp [Session.stopFeed, liveFeed]
      · have notLive : ¬ Live feed sessions index := by
          rw [current.live_iff, isSession, Option.some_inj]
          exact here
        simp [here, stopFeed_of_not_live found notLive]

theorem Stream.Current.stop_eq (current : stream.Current feed sessions) :
    stream.stop sessions =
      (sessions.map (Session.stopFeed feed), { stream with client := none, handler := none }) := by
  obtain ⟨client, handler, updates⟩ := stream
  cases client with
  | none => rw [Stream.stop, current.map_stopFeed_of_none rfl]
  | some client =>
      cases isSession : client.session with
      | none =>
          rw [current.map_stopFeed_of_none isSession]
          simp only [Stream.stop, WebSocketClient.stop, isSession]
      | some position =>
          rw [current.map_stopFeed_of_some isSession]
          simp only [Stream.stop, WebSocketClient.stop, isSession]

theorem Stream.Current.start_eq (current : stream.Current feed sessions) (streamName : Bytes)
    (hasHandler : Bool) :
    stream.start sessions feed streamName hasHandler =
      (sessions.map (Session.stopFeed feed) ++ [Session.start { feed, streamName }],
        { stream with
          client := some { streamName, session := some sessions.length }
          handler := if hasHandler then some sessions.length else none }) := by
  rw [Stream.start, current.stop_eq]
  simp [WebSocketClient.start, WebSocketClient.stop]

/-- The streams see a session only by its feed and whether it is stopped. -/
theorem Stream.Current.of_live_iff {later : List Session} (current : stream.Current feed sessions)
    (liveIff : ∀ index, Live feed later index ↔ Live feed sessions index) :
    stream.Current feed later :=
  ⟨fun index => (liveIff index).trans (current.live_iff index), current.session_of_handler⟩

theorem Stream.Current.stop (stream : Stream Update) (feed : Feed) (sessions : List Session) :
    Stream.Current feed (sessions.map (Session.stopFeed feed))
      { stream with client := none, handler := none } := by
  refine ⟨fun index => iff_of_false (not_live_stopFeed feed sessions index) ?_, ?_⟩
  · exact nofun
  · intro index isHandler
    cases isHandler

theorem Stream.Current.start (stream : Stream Update) (feed : Feed) (sessions : List Session)
    (streamName : Bytes) (hasHandler : Bool) :
    Stream.Current feed
      (sessions.map (Session.stopFeed feed) ++ [Session.start { feed, streamName }])
      { stream with
        client := some { streamName, session := some sessions.length }
        handler := if hasHandler then some sessions.length else none } := by
  refine ⟨fun index => ?_, fun index isHandler => ?_⟩
  · rw [live_append_iff _ _ _ (by rfl), List.length_map,
      or_iff_right (not_live_stopFeed feed sessions index)]
    simp [Session.start, Session.startOperation, Stream.session, eq_comm]
  · cases hasHandler with
    | false => cases isHandler
    | true => exact isHandler

theorem Stream.Current.stop_other {other : Feed} (current : stream.Current feed sessions)
    (different : feed ≠ other) :
    stream.Current feed (sessions.map (Session.stopFeed other)) :=
  current.of_live_iff (live_stopFeed_of_ne different sessions)

theorem Stream.Current.start_other {other : Feed} (current : stream.Current feed sessions)
    (different : feed ≠ other) (streamName : Bytes) :
    stream.Current feed
      (sessions.map (Session.stopFeed other) ++
        [Session.start { feed := other, streamName }]) := by
  refine (current.stop_other different).of_live_iff fun index => ?_
  rw [live_append_iff _ _ _ (by rfl), or_iff_left]
  exact fun created => different created.2.symm

end Calls

theorem stopDepth_eq {streams : Streams} (current : Current streams) :
    stopDepth streams =
      { streams with
        sessions := streams.sessions.map (Session.stopFeed .depth)
        depth := { streams.depth with client := none, handler := none } } := by
  rw [stopDepth, current.depth.stop_eq]

theorem stopTrades_eq {streams : Streams} (current : Current streams) :
    stopTrades streams =
      { streams with
        sessions := streams.sessions.map (Session.stopFeed .trades)
        trades := { streams.trades with client := none, handler := none } } := by
  rw [stopTrades, current.trades.stop_eq]

theorem stopDepth_current {streams : Streams} (current : Current streams) :
    Current (stopDepth streams) := by
  rw [stopDepth_eq current]
  exact ⟨.stop streams.depth .depth streams.sessions, current.trades.stop_other (by decide)⟩

theorem stopTrades_current {streams : Streams} (current : Current streams) :
    Current (stopTrades streams) := by
  rw [stopTrades_eq current]
  exact ⟨current.depth.stop_other (by decide), .stop streams.trades .trades streams.sessions⟩

theorem call_current {streams : Streams} (current : Current streams) (event : Call) :
    Current (call streams event) := by
  cases event with
  | startDepth hasHandler =>
      rw [call, startDepth, current.depth.start_eq]
      exact ⟨.start streams.depth .depth streams.sessions _ hasHandler,
        current.trades.start_other (by decide) _⟩
  | startTrades hasHandler =>
      rw [call, startTrades, current.trades.start_eq]
      exact ⟨current.depth.start_other (by decide) _,
        .start streams.trades .trades streams.sessions _ hasHandler⟩
  | stopDepth => exact stopDepth_current current
  | stopTrades => exact stopTrades_current current
  | stop => exact stopTrades_current (stopDepth_current current)

/-- What a call does to the sessions there are. -/
def Call.apply (event : Call) (session : Session) : Session :=
  if event.stops session.feed ∧ session.stopped = false then session.release else session

theorem apply_eq_stopFeed {event : Call} (feed : Feed)
    (stops : ∀ other, event.stops other = true ↔ other = feed) :
    event.apply = Session.stopFeed feed := by
  funext session
  simp only [Call.apply, Session.stopFeed, stops]

theorem apply_stop : Call.stop.apply = Session.stopFeed .trades ∘ Session.stopFeed .depth := by
  funext session
  obtain feedEq | feedEq : session.feed = .depth ∨ session.feed = .trades := by
    cases session.feed <;> simp
  · cases stopped : session.stopped <;>
      simp [Call.apply, Call.stops, Session.stopFeed, Session.release, Session.stop, feedEq,
        stopped]
  · cases stopped : session.stopped <;>
      simp [Call.apply, Call.stops, Session.stopFeed, feedEq, stopped]

/-- A call stops sessions and at most adds a new one. -/
theorem call_sessions {streams : Streams} (current : Current streams) (event : Call) :
    ∃ created : List Session,
      (∀ session ∈ created, session.Quiet) ∧
        (call streams event).sessions = streams.sessions.map event.apply ++ created := by
  have quiet : ∀ (feed : Feed) (streamName : Bytes),
      ∀ session ∈ [Session.start { feed, streamName }], session.Quiet := by
    simp [Session.Quiet, Session.start, Session.startOperation]
  cases event with
  | startDepth hasHandler =>
      rw [apply_eq_stopFeed .depth (fun other => by simp [Call.stops]), call, startDepth,
        current.depth.start_eq]
      exact ⟨_, quiet _ _, rfl⟩
  | startTrades hasHandler =>
      rw [apply_eq_stopFeed .trades (fun other => by simp [Call.stops]), call, startTrades,
        current.trades.start_eq]
      exact ⟨_, quiet _ _, rfl⟩
  | stopDepth =>
      rw [apply_eq_stopFeed .depth (fun other => by simp [Call.stops]), call, stopDepth_eq current]
      exact ⟨[], nofun, (List.append_nil _).symm⟩
  | stopTrades =>
      rw [apply_eq_stopFeed .trades (fun other => by simp [Call.stops]), call,
        stopTrades_eq current]
      exact ⟨[], nofun, (List.append_nil _).symm⟩
  | stop =>
      rw [apply_stop, ← List.map_map, call, stop, stopTrades_eq (stopDepth_current current),
        stopDepth_eq current]
      exact ⟨[], nofun, (List.append_nil _).symm⟩

theorem call_updates {streams : Streams} (current : Current streams) (event : Call) :
    (call streams event).depth.updates = streams.depth.updates ∧
      (call streams event).trades.updates = streams.trades.updates := by
  cases event with
  | startDepth hasHandler =>
      rw [call, startDepth, current.depth.start_eq]
      exact ⟨rfl, rfl⟩
  | startTrades hasHandler =>
      rw [call, startTrades, current.trades.start_eq]
      exact ⟨rfl, rfl⟩
  | stopDepth =>
      rw [call, stopDepth_eq current]
      exact ⟨rfl, rfl⟩
  | stopTrades =>
      rw [call, stopTrades_eq current]
      exact ⟨rfl, rfl⟩
  | stop =>
      rw [call, stop, stopTrades_eq (stopDepth_current current), stopDepth_eq current]
      exact ⟨rfl, rfl⟩

theorem apply_quiet_iff (event : Call) (session : Session) :
    (event.apply session).Quiet ↔ session.Quiet := by
  rw [Call.apply]
  split <;> exact Iff.rfl

theorem call_obeyed {streams : Streams} (current : Current streams) (obeyed : Obeyed streams)
    (event : Call) : Obeyed (call streams event) := by
  obtain ⟨created, quiet, sessionsEq⟩ := call_sessions current event
  obtain ⟨depthEq, tradesEq⟩ := call_updates current event
  refine ⟨fun session member => ?_, depthEq ▸ obeyed.2.1, tradesEq ▸ obeyed.2.2⟩
  rw [sessionsEq, List.mem_append, List.mem_map] at member
  rcases member with ⟨before, member, rfl⟩ | member
  · exact (apply_quiet_iff event before).mpr (obeyed.1 before member)
  · exact quiet session member

/-- The calls a handler makes leave the session it was called by in place, and
stop it if one of them stops its feed. -/
theorem calls_session (calls : List Call) {streams : Streams} (current : Current streams)
    {index : Nat} {session : Session} (found : streams.sessions[index]? = some session) :
    ∃ after, (calls.foldl call streams).sessions[index]? = some after ∧
      after.feed = session.feed ∧ after.started = session.started ∧
        after.handled = session.handled ∧
          after.stopped = (session.stopped || calls.any fun event => event.stops session.feed) := by
  induction calls generalizing streams session with
  | nil => exact ⟨session, found, rfl, rfl, rfl, by simp⟩
  | cons event calls ih =>
      obtain ⟨created, _, sessionsEq⟩ := call_sessions current event
      have applied : (call streams event).sessions[index]? = some (event.apply session) := by
        rw [sessionsEq, List.getElem?_append_left, List.getElem?_map, found, Option.map_some]
        rw [List.length_map]
        exact (List.getElem?_eq_some_iff.mp found).1
      obtain ⟨after, foundAfter, feedEq, startedEq, handledEq, stoppedEq⟩ :=
        ih (call_current current event) applied
      refine ⟨after, foundAfter, ?_⟩
      rw [feedEq, startedEq, handledEq, stoppedEq, List.any_cons, Call.apply]
      split
      next stops => simp [Session.release, Session.stop, stops]
      next keeps =>
        refine ⟨rfl, rfl, rfl, ?_⟩
        cases stopped : session.stopped with
        | true => rfl
        | false =>
            have notStops : event.stops session.feed = false := by simpa [stopped] using keeps
            simp [notStops]

theorem calls_current (calls : List Call) {streams : Streams} (current : Current streams) :
    Current (calls.foldl call streams) := by
  induction calls generalizing streams with
  | nil => exact current
  | cons event calls ih => exact ih (call_current current event)

theorem calls_obeyed (calls : List Call) {streams : Streams} (current : Current streams)
    (obeyed : Obeyed streams) : Obeyed (calls.foldl call streams) := by
  induction calls generalizing streams with
  | nil => exact obeyed
  | cons event calls ih =>
      exact ih (call_current current event) (call_obeyed current obeyed event)

theorem modify_current {streams : Streams} (current : Current streams) (index : Nat)
    {change : Session → Session}
    (keeps : ∀ session, (change session).feed = session.feed ∧
      (change session).stopped = session.stopped) : Current (streams.modify index change) :=
  ⟨current.depth.of_live_iff fun _ => live_modify_iff keeps,
    current.trades.of_live_iff fun _ => live_modify_iff keeps⟩

theorem modify_getElem {streams : Streams} {index : Nat} {session : Session}
    (found : streams.sessions[index]? = some session) (change : Session → Session) :
    (streams.modify index change).sessions[index]? = some (change session) := by
  simp [Streams.modify, found]

theorem modify_obeyed_iff {streams : Streams} (obeyed : Obeyed streams) {index : Nat}
    {session : Session} (found : streams.sessions[index]? = some session)
    (change : Session → Session) :
    Obeyed (streams.modify index change) ↔ (change session).Quiet := by
  constructor
  · intro later
    exact later.1 _ (List.mem_of_getElem? (modify_getElem found change))
  · intro quiet
    refine ⟨fun other member => ?_, obeyed.2⟩
    obtain ⟨position, foundOther⟩ := List.mem_iff_getElem?.mp member
    rw [Streams.modify, List.getElem?_modify] at foundOther
    by_cases here : index = position
    · subst here
      rw [found, Option.map_eq_map, Option.map_some, if_pos rfl, Option.some_inj] at foundOther
      rwa [← foundOther]
    · simp only [here, if_false] at foundOther
      exact obeyed.1 other (List.mem_of_getElem? (by simpa using foundOther))

theorem startOperation_quiet_iff {session : Session} (quiet : session.Quiet)
    (operation : Operation) :
    (session.startOperation operation).Quiet ↔ session.stopped = false := by
  obtain ⟨started, handled⟩ := quiet
  simp only [Session.Quiet, Session.startOperation, List.mem_append, List.mem_singleton]
  constructor
  · rintro ⟨later, _⟩
    exact later _ (.inr rfl)
  · intro unstopped
    refine ⟨?_, handled⟩
    rintro entry (member | rfl)
    · exact started entry member
    · exact unstopped

theorem handle_quiet_iff {session : Session} (quiet : session.Quiet) (message : Bytes) :
    (session.handle message).Quiet ↔ session.stopped = false := by
  obtain ⟨started, handled⟩ := quiet
  simp only [Session.Quiet, Session.handle, List.mem_append, List.mem_singleton]
  constructor
  · rintro ⟨_, later⟩
    exact later _ (.inr rfl)
  · intro unstopped
    refine ⟨started, ?_⟩
    rintro entry (member | rfl)
    · exact handled entry member
    · exact unstopped

theorem reportError_quiet {session : Session} (quiet : session.Quiet) (operation : String)
    (error : ErrorCode) : (session.reportError operation error).Quiet := by
  rw [Session.reportError]
  split <;> exact quiet

theorem reportError_keeps (session : Session) (operation : String) (error : ErrorCode) :
    (session.reportError operation error).feed = session.feed ∧
      (session.reportError operation error).stopped = session.stopped ∧
        (session.reportError operation error).handled = session.handled := by
  rw [Session.reportError]
  split <;> exact ⟨rfl, rfl, rfl⟩

/-- A callback of a stopped session that goes on starts an operation. -/
theorem callback_quiet_iff {session : Session} (quiet : session.Quiet) {completion : Completion}
    (notMessage : ∀ message, completion ≠ .read (.ok message)) :
    (session.callback completion).Quiet ↔
      (session.stopped = true → completion.proceeds = false) := by
  have failed : ∀ {later : Session}, later.Quiet →
      (later.Quiet ↔ (session.stopped = true → false = false)) :=
    fun later => iff_of_true later fun _ => rfl
  have started : ∀ {later : Session}, (later.Quiet ↔ session.stopped = false) →
      (later.Quiet ↔ (session.stopped = true → true = false)) := by
    intro later iff
    rw [iff]
    cases session.stopped <;> simp
  cases completion with
  | resolve error =>
      cases error with
      | some error => exact failed (reportError_quiet quiet _ error)
      | none => exact started (startOperation_quiet_iff quiet _)
  | connect error serverNameSet =>
      cases error with
      | some error => exact failed (reportError_quiet quiet _ error)
      | none =>
          cases serverNameSet with
          | false => exact failed quiet
          | true => exact started (startOperation_quiet_iff quiet _)
  | tlsHandshake error =>
      cases error with
      | some error => exact failed (reportError_quiet quiet _ error)
      | none => exact started (startOperation_quiet_iff quiet _)
  | handshake error =>
      cases error with
      | some error => exact failed (reportError_quiet quiet _ error)
      | none =>
          refine started (Iff.trans (startOperation_quiet_iff ?_ _) Iff.rfl)
          exact quiet
  | write subscription error =>
      cases error with
      | some error => exact failed (reportError_quiet quiet _ error)
      | none => exact started (startOperation_quiet_iff quiet _)
  | read result =>
      cases result with
      | ok message => exact absurd rfl (notMessage message)
      | error error =>
          refine failed ?_
          rw [Session.callback]
          split
          · exact reportError_quiet quiet _ error
          · exact quiet

theorem callback_keeps (session : Session) (completion : Completion) :
    (session.callback completion).feed = session.feed ∧
      (session.callback completion).stopped = session.stopped ∧
        (session.callback completion).handled = session.handled := by
  cases completion with
  | resolve error | tlsHandshake error | handshake error | write _ error =>
      cases error with
      | some error => exact reportError_keeps session _ error
      | none => exact ⟨rfl, rfl, rfl⟩
  | connect error serverNameSet =>
      cases error with
      | some error => exact reportError_keeps session _ error
      | none => cases serverNameSet <;> exact ⟨rfl, rfl, rfl⟩
  | read result =>
      cases result with
      | ok message => exact ⟨rfl, rfl, rfl⟩
      | error error =>
          rw [Session.callback]
          split
          · exact reportError_keeps session _ error
          · exact ⟨rfl, rfl, rfl⟩

theorem handler_of_received {Update : Type} {boost : BoostJson.Library}
    {parseUpdate : Bytes → Except Fault Update} {stream : Stream Update} {message : Bytes}
    {handler : Nat} {update : Update}
    (received : stream.received boost parseUpdate message = .ok (some (handler, update))) :
    stream.handler = some handler := by
  rw [Stream.received] at received
  obtain ⟨isResponse, _, received⟩ := bind_eq_ok_iff.mp received
  cases isResponse with
  | true => cases received
  | false =>
      obtain ⟨parsed, _, received⟩ := bind_eq_ok_iff.mp received
      have installed := Except.ok.inj received
      rw [Option.map_eq_some_iff] at installed
      obtain ⟨present, presentEq, pairEq⟩ := installed
      rw [presentEq, (Prod.mk.inj pairEq).1]

/-- The handler called for a live session is the one installed with it. -/
theorem Stream.Current.handler_eq {Update : Type} {feed : Feed} {sessions : List Session}
    {stream : Stream Update} (current : stream.Current feed sessions) {handler index : Nat}
    (installed : stream.handler = some handler) (live : Live feed sessions index) :
    handler = index :=
  Option.some.inj ((current.session_of_handler handler installed).symm.trans
    ((current.live_iff index).mp live))

section Messages

variable (boost : BoostJson.Library)

/-- The reception of a message logs the update under the handler's own session
if the session that read it is live, and then runs the handler. -/
theorem onMessage_cases {streams : Streams} (current : Current streams) (feed : Feed)
    (index : Nat) (message : Bytes) (handling : Handling) :
    ∃ logged, Current logged ∧ logged.sessions = streams.sessions ∧
      (Live feed streams.sessions index → Obeyed streams → Obeyed logged) ∧
      ((Delivers boost streams message feed ∧
          onMessage boost streams feed index message handling =
            (handling.calls.foldl call logged, handling.returns)) ∨
        (¬ Delivers boost streams message feed ∧
          onMessage boost streams feed index message handling = (logged, true))) := by
  cases feed with
  | depth =>
      rw [onMessage, onDepthMessage, Delivers]
      split
      next handler update received =>
        let updates := streams.depth.updates ++ [(handler, index, update)]
        refine ⟨{ streams with depth := { streams.depth with updates } },
          ⟨⟨current.depth.live_iff, current.depth.session_of_handler⟩, current.trades⟩, rfl, ?_,
          .inl ⟨⟨_, received⟩, rfl⟩⟩
        intro live obeyed
        have same := current.depth.handler_eq (handler_of_received received) live
        refine ⟨obeyed.1, ?_, obeyed.2.2⟩
        simp only [updates, List.mem_append, List.mem_singleton]
        rintro entry (member | rfl)
        · exact obeyed.2.1 entry member
        · exact same
      next notReceived =>
        refine ⟨streams, current, rfl, fun _ => id, .inr ⟨?_, rfl⟩⟩
        rintro ⟨entry, received⟩
        exact notReceived _ _ received
  | trades =>
      rw [onMessage, onTradeMessage, Delivers]
      split
      next handler trade received =>
        let updates := streams.trades.updates ++ [(handler, index, trade)]
        refine ⟨{ streams with trades := { streams.trades with updates } },
          ⟨current.depth, ⟨current.trades.live_iff, current.trades.session_of_handler⟩⟩, rfl, ?_,
          .inl ⟨⟨_, received⟩, rfl⟩⟩
        intro live obeyed
        have same := current.trades.handler_eq (handler_of_received received) live
        refine ⟨obeyed.1, obeyed.2.1, ?_⟩
        simp only [updates, List.mem_append, List.mem_singleton]
        rintro entry (member | rfl)
        · exact obeyed.2.2 entry member
        · exact same
      next notReceived =>
        refine ⟨streams, current, rfl, fun _ => id, .inr ⟨?_, rfl⟩⟩
        rintro ⟨entry, received⟩
        exact notReceived _ _ received

theorem delivers_modify (streams : Streams) (index : Nat) (change : Session → Session)
    (message : Bytes) (feed : Feed) :
    Delivers boost (streams.modify index change) message feed =
      Delivers boost streams message feed := by
  cases feed <;> rfl

theorem onRead_current {streams : Streams} (current : Current streams) (index : Nat)
    (feed : Feed) (message : Bytes) (handling : Handling) :
    Current (onRead boost streams index feed message handling) := by
  have handledCurrent : Current (streams.modify index (Session.handle · message)) :=
    modify_current current index fun _ => ⟨rfl, rfl⟩
  obtain ⟨logged, loggedCurrent, _, _, ⟨_, outcome⟩ | ⟨_, outcome⟩⟩ :=
    onMessage_cases boost handledCurrent feed index message handling
  · have afterCurrent := calls_current handling.calls loggedCurrent
    rw [onRead, outcome]
    cases handling.returns with
    | false => exact afterCurrent
    | true => exact modify_current afterCurrent index fun _ => ⟨rfl, rfl⟩
  · rw [onRead, outcome]
    exact modify_current loggedCurrent index fun _ => ⟨rfl, rfl⟩

/-- The session is found again after the callback, with the message logged. -/
theorem onRead_handled {streams : Streams} (current : Current streams) {index : Nat}
    {session : Session} (found : streams.sessions[index]? = some session) (message : Bytes)
    (handling : Handling) :
    ∃ after,
      (onRead boost streams index session.feed message handling).sessions[index]? = some after ∧
        after.handled = session.handled ++ [(session.stopped, message)] := by
  have handledFound := modify_getElem found (Session.handle · message)
  have handledCurrent : Current (streams.modify index (Session.handle · message)) :=
    modify_current current index fun _ => ⟨rfl, rfl⟩
  obtain ⟨logged, loggedCurrent, sessionsEq, _, ⟨_, outcome⟩ | ⟨_, outcome⟩⟩ :=
    onMessage_cases boost handledCurrent session.feed index message handling
  · rw [← sessionsEq] at handledFound
    obtain ⟨after, afterFound, _, _, handledEq, _⟩ :=
      calls_session handling.calls loggedCurrent handledFound
    rw [onRead, outcome]
    cases handling.returns with
    | false => exact ⟨after, afterFound, handledEq⟩
    | true => exact ⟨_, modify_getElem afterFound _, handledEq⟩
  · rw [← sessionsEq] at handledFound
    rw [onRead, outcome]
    exact ⟨_, modify_getElem handledFound _, rfl⟩

/-- The callback of a live session is obeyed unless the handler stops the
session and returns to it. -/
theorem onRead_obeyed_iff_of_live {streams : Streams} (current : Current streams)
    (obeyed : Obeyed streams) {index : Nat} {session : Session}
    (found : streams.sessions[index]? = some session) (unstopped : session.stopped = false)
    (message : Bytes) (handling : Handling) :
    Obeyed (onRead boost streams index session.feed message handling) ↔
      (Delivers boost streams message session.feed → handling.returns = true →
        ∀ call ∈ handling.calls, call.stops session.feed = false) := by
  have quiet := obeyed.1 session (List.mem_of_getElem? found)
  have handledQuiet := (handle_quiet_iff quiet message).mpr unstopped
  have handledFound := modify_getElem found (Session.handle · message)
  have handledCurrent : Current (streams.modify index (Session.handle · message)) :=
    modify_current current index fun _ => ⟨rfl, rfl⟩
  have handledObeyed : Obeyed (streams.modify index (Session.handle · message)) :=
    (modify_obeyed_iff obeyed found _).mpr handledQuiet
  obtain ⟨logged, loggedCurrent, sessionsEq, loggedObeyed, outcome⟩ :=
    onMessage_cases boost handledCurrent session.feed index message handling
  have obeyedLogged := loggedObeyed ⟨_, handledFound, rfl, unstopped⟩ handledObeyed
  rw [← sessionsEq] at handledFound
  rw [delivers_modify] at outcome
  rcases outcome with ⟨delivers, outcome⟩ | ⟨notDelivered, outcome⟩
  · obtain ⟨after, afterFound, _, startedEq, handledEq, stoppedEq⟩ :=
      calls_session handling.calls loggedCurrent handledFound
    have afterObeyed := calls_obeyed handling.calls loggedCurrent obeyedLogged
    have afterQuiet := afterObeyed.1 after (List.mem_of_getElem? afterFound)
    rw [onRead, outcome]
    cases returns : handling.returns with
    | false => exact iff_of_true afterObeyed fun _ => nofun
    | true =>
        dsimp only
        rw [modify_obeyed_iff afterObeyed afterFound, Session.read,
          startOperation_quiet_iff afterQuiet, stoppedEq]
        simp [unstopped, delivers, Session.handle]
  · rw [onRead, outcome]
    dsimp only
    rw [modify_obeyed_iff obeyedLogged handledFound]
    refine iff_of_true ?_ fun delivers => absurd delivers notDelivered
    exact (startOperation_quiet_iff handledQuiet .read).mpr unstopped

theorem onRead_obeyed_iff {streams : Streams} (current : Current streams)
    (obeyed : Obeyed streams) {index : Nat} {session : Session}
    (found : streams.sessions[index]? = some session) (message : Bytes) (handling : Handling) :
    Obeyed (onRead boost streams index session.feed message handling) ↔
      session.stopped = false ∧
        (Delivers boost streams message session.feed → handling.returns = true →
          ∀ call ∈ handling.calls, call.stops session.feed = false) := by
  cases stopped : session.stopped with
  | false =>
      rw [onRead_obeyed_iff_of_live boost current obeyed found stopped]
      simp
  | true =>
      obtain ⟨after, afterFound, handledEq⟩ :=
        onRead_handled boost current found message handling
      refine iff_of_false (fun later => ?_) (fun both => nomatch both.1)
      have quiet := (later.1 after (List.mem_of_getElem? afterFound)).2
      rw [handledEq, stopped] at quiet
      exact nomatch quiet (true, message) (by simp)

theorem runCompletion_obeyed_iff {streams : Streams} (current : Current streams)
    (obeyed : Obeyed streams) {index : Nat} {session : Session}
    (found : streams.sessions[index]? = some session) (completion : Completion)
    (handling : Handling) :
    Obeyed (runCompletion boost streams index session.feed completion handling) ↔
      (session.stopped = true → completion.proceeds = false) ∧
        (session.stopped = false → ∀ message, completion = .read (.ok message) →
          Delivers boost streams message session.feed → handling.returns = true →
            ∀ call ∈ handling.calls, call.stops session.feed = false) := by
  by_cases isMessage : ∃ message, completion = .read (.ok message)
  · obtain ⟨message, rfl⟩ := isMessage
    rw [runCompletion, onRead_obeyed_iff boost current obeyed found]
    cases session.stopped <;> simp [Completion.proceeds, Except.isOk, Except.toBool]
  · have notMessage : ∀ message, completion ≠ .read (.ok message) := not_exists.mp isMessage
    have quiet := obeyed.1 session (List.mem_of_getElem? found)
    have run : runCompletion boost streams index session.feed completion handling =
        streams.modify index (Session.callback · completion) := by
      rw [runCompletion]
      exact notMessage
    rw [run, modify_obeyed_iff obeyed found, callback_quiet_iff quiet notMessage]
    exact (and_iff_left fun _ message same => absurd same (notMessage message)).symm

theorem runCompletion_current {streams : Streams} (current : Current streams) (index : Nat)
    (feed : Feed) (completion : Completion) (handling : Handling) :
    Current (runCompletion boost streams index feed completion handling) := by
  rw [runCompletion.eq_def]
  split
  · exact onRead_current boost current index feed _ handling
  · refine modify_current current index fun session => ?_
    obtain ⟨feedEq, stoppedEq, _⟩ := callback_keeps session completion
    exact ⟨feedEq, stoppedEq⟩

theorem step_complete_eq_some_iff {streams next : Streams} {index : Nat}
    {completion : Completion} :
    step boost streams (.complete index completion) = some next ↔
      ∃ session, streams.sessions[index]? = some session ∧
        completion.operation ∈ session.pending ∧
          streams.modify index (Session.complete · completion) = next := by
  simp only [step, Option.bind_eq_bind, Option.bind_eq_some_iff, Option.ite_none_right_eq_some,
    Option.some_inj]

theorem step_run_eq_some_iff {streams next : Streams} {index : Nat} {completion : Completion}
    {handling : Handling} :
    step boost streams (.run index completion handling) = some next ↔
      ∃ session, streams.sessions[index]? = some session ∧ completion ∈ session.queued ∧
        runCompletion boost (streams.modify index (Session.dequeue · completion)) index
          session.feed completion handling = next := by
  simp only [step, Option.bind_eq_bind, Option.bind_eq_some_iff, Option.ite_none_right_eq_some,
    Option.some_inj]

theorem step_current {streams next : Streams} {event : Event} (current : Current streams)
    (stepped : step boost streams event = some next) : Current next := by
  cases event with
  | call event =>
      obtain rfl : call streams event = next := by simpa [step] using stepped
      exact call_current current event
  | complete index completion =>
      obtain ⟨_, _, _, rfl⟩ := (step_complete_eq_some_iff boost).mp stepped
      exact modify_current current index fun _ => ⟨rfl, rfl⟩
  | run index completion handling =>
      obtain ⟨session, _, _, rfl⟩ := (step_run_eq_some_iff boost).mp stepped
      refine runCompletion_current boost ?_ index session.feed completion handling
      exact modify_current current index fun _ => ⟨rfl, rfl⟩

theorem leavesStopped_iff_obeyed {streams next : Streams} {event : Event}
    (current : Current streams) (obeyed : Obeyed streams)
    (stepped : step boost streams event = some next) :
    LeavesStopped boost streams event ↔ Obeyed next := by
  cases event with
  | call event =>
      obtain rfl : call streams event = next := by simpa [step] using stepped
      exact iff_of_true trivial (call_obeyed current obeyed event)
  | complete index completion =>
      obtain ⟨session, found, _, rfl⟩ := (step_complete_eq_some_iff boost).mp stepped
      refine iff_of_true trivial ((modify_obeyed_iff obeyed found _).mpr ?_)
      exact obeyed.1 session (List.mem_of_getElem? found)
  | run index completion handling =>
      obtain ⟨session, found, _, rfl⟩ := (step_run_eq_some_iff boost).mp stepped
      have dequeuedFound := modify_getElem found (Session.dequeue · completion)
      have dequeuedCurrent : Current (streams.modify index (Session.dequeue · completion)) :=
        modify_current current index fun _ => ⟨rfl, rfl⟩
      have dequeuedObeyed : Obeyed (streams.modify index (Session.dequeue · completion)) :=
        (modify_obeyed_iff obeyed found _).mpr (obeyed.1 session (List.mem_of_getElem? found))
      have decided := runCompletion_obeyed_iff boost dequeuedCurrent dequeuedObeyed
        dequeuedFound completion handling
      simp only [delivers_modify] at decided
      rw [LeavesStopped]
      refine Iff.trans ?_ decided.symm
      constructor
      · exact fun all => all session found
      · intro one other foundOther
        obtain rfl : session = other := Option.some.inj (found.symm.trans foundOther)
        exact one

/-- Streams whose stops have been obeyed so far. -/
def ObeyedSoFar (streams : Streams) : Prop :=
  Obeyed streams ∧ Current streams

theorem newStreams_current (symbol : Bytes) : Current (newStreams symbol) := by
  refine ⟨⟨fun index => ?_, nofun⟩, ⟨fun index => ?_, nofun⟩⟩
  · exact iff_of_false (fun ⟨_, found, _⟩ => nomatch found) nofun
  · exact iff_of_false (fun ⟨_, found, _⟩ => nomatch found) nofun

/-- In every state of a run the stops have been obeyed exactly when no step of
the run carries on a stopped session. -/
theorem stops_obeyed_iff (symbol : Bytes) (events : List Event) :
    EveryState (step boost) Obeyed (newStreams symbol) events ↔
      EveryStep (step boost) (LeavesStopped boost) (newStreams symbol) events := by
  have initially : ObeyedSoFar (newStreams symbol) :=
    ⟨⟨nofun, nofun, nofun⟩, newStreams_current symbol⟩
  refine everyState_iff_everyStep ?_ ?_ events initially initially.1
  · rintro streams next event ⟨obeyed, current⟩ stepped
    exact leavesStopped_iff_obeyed boost current obeyed stepped
  · rintro streams next event ⟨obeyed, current⟩ stepped leaves
    exact ⟨(leavesStopped_iff_obeyed boost current obeyed stepped).mp leaves,
      step_current boost current stepped⟩

end Messages

/-- A depth update that changes no level. -/
def emptyUpdate : Json :=
  .object
    [(ascii "U", .uint64 1), (ascii "u", .uint64 1), (ascii "E", .uint64 1),
      (ascii "b", .array []), (ascii "a", .array [])]

/-- The library when every message is that update. -/
def emptyUpdates : BoostJson.Library :=
  .documented fun _ => .ok emptyUpdate

/-- A second `startDepth` stops the first session while it resolves; the first
session then connects, subscribes and reads an update, which the new handler is
given. -/
theorem stopped_session_reaches_new_handler :
    ∃ events streams,
      runFrom (step emptyUpdates) (newStreams [98]) events = some streams ∧
        streams.sessions.map Session.stopped = [true, false] ∧
          streams.depth.updates = [(1, 0, ⟨1, 1, 1, [], []⟩)] ∧ ¬ Obeyed streams := by
  let completions : List Completion :=
    [.resolve none, .connect none true, .tlsHandshake none, .handshake none,
      .write (subscriptionText ([98] ++ ascii "@depth@100ms")) none, .read (.ok [])]
  let carriedOn : List Event := completions.flatMap fun completion =>
    [.complete 0 completion, .run 0 completion { calls := [], returns := true }]
  refine ⟨[.call (.startDepth true), .call (.startDepth true)] ++ carriedOn, _, rfl, rfl, rfl, ?_⟩
  intro obeyed
  have own := obeyed.2.1 (1, 0, ⟨1, 1, 1, [], []⟩) (.head _)
  cases own

end Connector

end ExchangeConnectivity
