import ExchangeConnectivity.ConnectorSessions
import ExchangeConnectivity.DepthMessages

/-!
# The updates a handler is given

A message handler of the connector looks up the user's handler when it runs, so
an update can reach a handler that was installed after the session was made.
As long as the session is not stopped the handler is the one installed with it:
it is given every update the session reads, in order and once, and what other
sessions add to that comes from sessions stopped before.
-/

namespace ExchangeConnectivity

open ActionRuns ByteStrings FailingComputations

namespace Connector

/-- The update a stream method makes of a message, unless the message answers
the subscription or is malformed. -/
def updateOf {Update : Type} (boost : BoostJson.Library)
    (parseUpdate : Bytes → Except Fault Update) (message : Bytes) : Option Update :=
  match isSubscriptionResponse boost message, parseUpdate message with
  | .ok false, .ok update => some update
  | _, _ => none

/-- The messages a session has handed on before its stop. -/
def Session.liveMessages (session : Session) : List Bytes :=
  (session.handled.filter fun entry => entry.1 = false).map Prod.snd

/-- The messages handed on before the stop come before those handed on after
it. -/
def Session.InTime (session : Session) : Prop :=
  ∃ late, session.handled =
      session.liveMessages.map (Prod.mk false) ++ late.map (Prod.mk true) ∧
    (session.stopped = false → late = [])

/-- The updates the handler installed with a session was given from it. -/
def Stream.given {Update : Type} (stream : Stream Update) (index : Nat) : List Update :=
  (stream.updates.filter fun entry => entry.1 = index ∧ entry.2.1 = index).map
    fun entry => entry.2.2

/-- A message reaches the handler there is, if it makes an update. -/
def Stream.deliver {Update : Type} (decode : Bytes → Option Update) (stream : Stream Update)
    (index : Nat) (message : Bytes) : Stream Update :=
  match stream.handler, decode message with
  | some handler, some update =>
      { stream with updates := stream.updates ++ [(handler, index, update)] }
  | _, _ => stream

theorem handle_liveMessages (session : Session) (message : Bytes) :
    (session.handle message).liveMessages =
      session.liveMessages ++ if session.stopped then [] else [message] := by
  rw [Session.liveMessages, Session.handle, List.filter_append, List.map_append]
  cases session.stopped <;> rfl

theorem Session.InTime.handle {session : Session} (inTime : session.InTime) (message : Bytes) :
    (session.handle message).InTime := by
  obtain ⟨late, handledEq, unstopped⟩ := inTime
  rw [Session.InTime, handle_liveMessages, Session.handle, handledEq]
  cases stopped : session.stopped with
  | false => exact ⟨[], by simp [unstopped stopped], fun _ => rfl⟩
  | true =>
      exact ⟨late ++ [message], by simp, fun notStopped => absurd notStopped (by decide)⟩

theorem not_stopped_before {session later : Session}
    (stays : session.stopped = true → later.stopped = true) (unstopped : later.stopped = false) :
    session.stopped = false := by
  by_contra stopped
  rw [stays (by simpa using stopped)] at unstopped
  cases unstopped

theorem Session.InTime.later {session later : Session} (inTime : session.InTime)
    (sameHandled : later.handled = session.handled)
    (stays : session.stopped = true → later.stopped = true) : later.InTime := by
  obtain ⟨late, handledEq, unstopped⟩ := inTime
  refine ⟨late, ?_, fun laterUnstopped => unstopped (not_stopped_before stays laterUnstopped)⟩
  rw [Session.liveMessages, sameHandled]
  exact handledEq

section Stream

variable {Update : Type} (decode : Bytes → Option Update) (stream : Stream Update)

theorem deliver_handler (index : Nat) (message : Bytes) :
    (stream.deliver decode index message).handler = stream.handler := by
  rw [Stream.deliver]
  split <;> rfl

theorem deliver_client (index : Nat) (message : Bytes) :
    (stream.deliver decode index message).client = stream.client := by
  rw [Stream.deliver]
  split <;> rfl

theorem mem_deliver_updates {entry : Nat × Nat × Update} {index : Nat} {message : Bytes}
    (member : entry ∈ (stream.deliver decode index message).updates) :
    entry ∈ stream.updates ∨ stream.handler = some entry.1 ∧ entry.2.1 = index := by
  rw [Stream.deliver] at member
  split at member
  next handler update installed _ =>
    rcases List.mem_append.mp member with before | new
    · exact .inl before
    · rw [List.mem_singleton.mp new]
      exact .inr ⟨installed, rfl⟩
  next => exact .inl member

/-- The handler of a session gets the update of its message while it is
installed. -/
theorem deliver_given (index position : Nat) (message : Bytes) :
    (stream.deliver decode position message).given index =
      stream.given index ++
        if position = index ∧ stream.handler = some index then (decode message).toList
        else [] := by
  rw [Stream.deliver]
  cases installed : stream.handler with
  | none => simp
  | some handler =>
      cases decoded : decode message with
      | none => simp
      | some update =>
          by_cases same : handler = index ∧ position = index
          · simp [Stream.given, List.filter_append, same]
          · have apart : ¬ (position = index ∧ some handler = some index) :=
              fun both => same ⟨Option.some.inj both.2, both.1⟩
            rw [if_neg apart, List.append_nil]
            simp [Stream.given, List.filter_append, same]

end Stream

theorem received_eq_ok_some_iff {Update : Type} {boost : BoostJson.Library}
    {parseUpdate : Bytes → Except Fault Update} {stream : Stream Update} {message : Bytes}
    {handler : Nat} {update : Update} :
    stream.received boost parseUpdate message = .ok (some (handler, update)) ↔
      stream.handler = some handler ∧ updateOf boost parseUpdate message = some update := by
  rw [Stream.received, updateOf]
  cases isSubscriptionResponse boost message with
  | error fault => simp
  | ok isResponse =>
      cases isResponse with
      | true => simp [pure, Except.pure]
      | false =>
          cases parseUpdate message with
          | error fault => simp
          | ok parsed => cases stream.handler <;> simp [pure, Except.pure]

section Received

variable {Update : Type} {boost : BoostJson.Library}
  {parseUpdate : Bytes → Except Fault Update} {stream : Stream Update} {message : Bytes}

theorem deliver_of_received {handler index : Nat} {update : Update}
    (received : stream.received boost parseUpdate message = .ok (some (handler, update))) :
    stream.deliver (updateOf boost parseUpdate) index message =
      { stream with updates := stream.updates ++ [(handler, index, update)] } := by
  obtain ⟨installed, decoded⟩ := received_eq_ok_some_iff.mp received
  simp [Stream.deliver, installed, decoded]

theorem deliver_of_not_received {index : Nat}
    (notReceived : ∀ handler update,
      stream.received boost parseUpdate message ≠ .ok (some (handler, update))) :
    stream.deliver (updateOf boost parseUpdate) index message = stream := by
  rw [Stream.deliver]
  split
  next handler update installed decoded =>
    exact absurd (received_eq_ok_some_iff.mpr ⟨installed, decoded⟩) (notReceived handler update)
  next => rfl

end Received

theorem Stream.Current.deliver {Update : Type} {feed : Feed} {sessions : List Session}
    {stream : Stream Update} (current : stream.Current feed sessions)
    (decode : Bytes → Option Update) (index : Nat) (message : Bytes) :
    (stream.deliver decode index message).Current feed sessions := by
  refine ⟨fun position => ?_, fun position installed => ?_⟩
  · rw [Stream.session, deliver_client]
    exact current.live_iff position
  · rw [deliver_handler] at installed
    rw [Stream.session, deliver_client]
    exact current.session_of_handler position installed

section Delivering

variable {Update : Type} (always : Prop) (decode : Bytes → Option Update) (feed : Feed)

/-- The handler installed with the session has been given the updates of all
messages read before the stop, and is installed as long as the session is not
stopped; or the start of the session has installed no handler. -/
inductive Served (stream : Stream Update) (index : Nat) (session : Session) : Prop
  | given (givenEq : stream.given index = session.liveMessages.filterMap decode)
      (installed : session.stopped = false → stream.handler = some index)
  | handlerless (sometimes : ¬ always) (givenEq : stream.given index = [])
      (absent : stream.handler ≠ some index)

/-- Every session of the feed is served, and a handler installed with another
session than the one the update comes from is the later one. -/
structure Stream.Delivering (sessions : List Session) (stream : Stream Update) : Prop where
  served : ∀ index session, sessions[index]? = some session → session.feed = feed →
    Served always decode stream index session
  inTime : ∀ (index : Nat) (session : Session), sessions[index]? = some session →
    session.feed = feed → session.InTime
  foreign : ∀ entry ∈ stream.updates, entry.1 ≠ entry.2.1 →
    entry.2.1 < entry.1 ∧ ∃ session, sessions[entry.2.1]? = some session ∧
      session.feed = feed ∧ session.stopped = true
  taken : ∀ entry ∈ stream.updates, entry.1 < sessions.length
  latest : ∀ handler, stream.handler = some handler →
    ∀ index session, sessions[index]? = some session → session.feed = feed → index ≤ handler

/-- The sessions of the feed are still there and have handled nothing since,
and no others of the feed have been added. -/
structure SameFeed (sessions after : List Session) : Prop where
  kept : ∀ (index : Nat) (session : Session), sessions[index]? = some session →
    session.feed = feed → ∃ later : Session, after[index]? = some later ∧
      later.feed = feed ∧ later.handled = session.handled ∧
        (session.stopped = true → later.stopped = true)
  old : ∀ (index : Nat) (later : Session), after[index]? = some later → later.feed = feed →
    ∃ session, sessions[index]? = some session ∧ session.feed = feed
  length_le : sessions.length ≤ after.length

variable {always decode feed} {sessions after : List Session} {stream : Stream Update}

theorem Served.later {index : Nat} {session later : Session}
    (served : Served always decode stream index session)
    (sameHandled : later.handled = session.handled)
    (stays : session.stopped = true → later.stopped = true) :
    Served always decode stream index later := by
  cases served with
  | given givenEq installed =>
      refine .given ?_ fun unstopped => installed (not_stopped_before stays unstopped)
      rw [givenEq, Session.liveMessages, Session.liveMessages, sameHandled]
  | handlerless sometimes givenEq absent => exact .handlerless sometimes givenEq absent

theorem SameFeed.before (same : SameFeed feed sessions after) {index : Nat} {later : Session}
    (found : after[index]? = some later) (isFeed : later.feed = feed) :
    ∃ session, sessions[index]? = some session ∧ session.feed = feed ∧
      later.handled = session.handled ∧ (session.stopped = true → later.stopped = true) := by
  obtain ⟨session, foundBefore, wasFeed⟩ := same.old index later found isFeed
  obtain ⟨other, foundOther, -, sameHandled, stays⟩ := same.kept index session foundBefore wasFeed
  obtain rfl : later = other := Option.some.inj (found.symm.trans foundOther)
  exact ⟨session, foundBefore, wasFeed, sameHandled, stays⟩

theorem Stream.Delivering.of_sameFeed
    (delivering : stream.Delivering always decode feed sessions)
    (same : SameFeed feed sessions after) : stream.Delivering always decode feed after := by
  refine ⟨fun index later found isFeed => ?_, fun index later found isFeed => ?_,
    fun entry member apart => ?_,
    fun entry member => Nat.lt_of_lt_of_le (delivering.taken entry member) same.length_le,
    fun handler installed index later found isFeed => ?_⟩
  · obtain ⟨session, foundBefore, wasFeed, sameHandled, stays⟩ :=
      same.before found isFeed
    exact (delivering.served index session foundBefore wasFeed).later sameHandled stays
  · obtain ⟨session, foundBefore, wasFeed, sameHandled, stays⟩ :=
      same.before found isFeed
    exact (delivering.inTime index session foundBefore wasFeed).later sameHandled stays
  · obtain ⟨earlier, session, found, isFeed, stopped⟩ := delivering.foreign entry member apart
    obtain ⟨later, foundLater, laterFeed, -, stays⟩ := same.kept _ session found isFeed
    exact ⟨earlier, later, foundLater, laterFeed, stays stopped⟩
  · obtain ⟨session, foundBefore, wasFeed⟩ := same.old index later found isFeed
    exact delivering.latest handler installed index session foundBefore wasFeed

theorem sameFeed_modify {position : Nat} {change : Session → Session}
    (keeps : ∀ session, sessions[position]? = some session →
      (change session).feed = session.feed ∧
        (session.feed = feed → (change session).handled = session.handled ∧
          (session.stopped = true → (change session).stopped = true))) :
    SameFeed feed sessions (sessions.modify position change) := by
  refine ⟨fun index session found isFeed => ?_, fun index later found isFeed => ?_,
    by rw [List.length_modify]⟩
  · by_cases here : position = index
    · subst here
      obtain ⟨sameFeed, keeps⟩ := keeps session found
      exact ⟨change session, by simp [found], sameFeed.trans isFeed, keeps isFeed⟩
    · exact ⟨session, by simp [here, found], isFeed, rfl, id⟩
  · rw [List.getElem?_modify, Option.map_eq_map, Option.map_eq_some_iff] at found
    obtain ⟨session, foundBefore, rfl⟩ := found
    refine ⟨session, foundBefore, ?_⟩
    split_ifs at isFeed with here
    · subst here
      exact (keeps session foundBefore).1.symm.trans isFeed
    · exact isFeed

theorem stopFeed_keeps (other : Feed) (session : Session) :
    (session.stopFeed other).handled = session.handled ∧
      (session.stopped = true → (session.stopFeed other).stopped = true) := by
  rw [Session.stopFeed]
  split
  · exact ⟨rfl, fun _ => rfl⟩
  · exact ⟨rfl, id⟩

theorem sameFeed_stopFeed (feed other : Feed) (sessions : List Session) :
    SameFeed feed sessions (sessions.map (Session.stopFeed other)) := by
  refine ⟨fun index session found isFeed => ?_, fun index later found isFeed => ?_,
    by rw [List.length_map]⟩
  · exact ⟨session.stopFeed other, by rw [List.getElem?_map, found, Option.map_some],
      (stopFeed_feed other session).trans isFeed, stopFeed_keeps other session⟩
  · rw [List.getElem?_map, Option.map_eq_some_iff] at found
    obtain ⟨session, foundBefore, rfl⟩ := found
    exact ⟨session, foundBefore, (stopFeed_feed other session).symm.trans isFeed⟩

theorem sameFeed_append (created : Session) (isOther : created.feed ≠ feed) :
    SameFeed feed sessions (sessions ++ [created]) := by
  refine ⟨fun index session found isFeed => ?_, fun index later found isFeed => ?_,
    by rw [List.length_append]; exact Nat.le_add_right _ _⟩
  · have taken := (List.getElem?_eq_some_iff.mp found).1
    exact ⟨session, by rw [List.getElem?_append_left taken, found], isFeed, rfl, id⟩
  · rcases Nat.lt_or_ge index sessions.length with before | beyond
    · rw [List.getElem?_append_left before] at found
      exact ⟨later, found, isFeed⟩
    · rw [List.getElem?_append_right beyond, List.getElem?_singleton] at found
      split at found
      · exact absurd (Option.some.inj found ▸ isFeed) isOther
      · cases found

/-- Without a handler and a session that is not stopped, the stream has nobody
to give updates to. -/
theorem Stream.Delivering.silence (delivering : stream.Delivering always decode feed sessions)
    (stopped : ∀ index, ¬ Live feed sessions index) :
    Stream.Delivering always decode feed sessions
      { stream with client := none, handler := none } := by
  refine ⟨fun index session found isFeed => ?_, delivering.inTime, delivering.foreign,
    delivering.taken, nofun⟩
  cases delivering.served index session found isFeed with
  | given givenEq installed =>
      exact .given givenEq fun unstopped =>
        absurd ⟨session, found, isFeed, unstopped⟩ (stopped index)
  | handlerless sometimes givenEq absent => exact .handlerless sometimes givenEq nofun

theorem Stream.Delivering.stop (delivering : stream.Delivering always decode feed sessions) :
    Stream.Delivering always decode feed (sessions.map (Session.stopFeed feed))
      { stream with client := none, handler := none } :=
  (delivering.of_sameFeed (sameFeed_stopFeed feed feed sessions)).silence
    (not_live_stopFeed feed sessions)

theorem Stream.Delivering.stop_other {other : Feed}
    (delivering : stream.Delivering always decode feed sessions) :
    stream.Delivering always decode feed (sessions.map (Session.stopFeed other)) :=
  delivering.of_sameFeed (sameFeed_stopFeed feed other sessions)

theorem given_eq_nil_of_taken
    (taken : ∀ entry ∈ stream.updates, entry.1 < sessions.length) :
    stream.given sessions.length = [] := by
  rw [Stream.given, List.map_eq_nil_iff, List.filter_eq_nil_iff]
  intro entry member
  have below := taken entry member
  simp only [decide_eq_true_eq, not_and]
  omega

/-- A session after one has been added. -/
theorem getElem?_concat_cases {created session : Session} {index : Nat}
    (found : (sessions ++ [created])[index]? = some session) :
    sessions[index]? = some session ∧ index < sessions.length ∨
      index = sessions.length ∧ session = created := by
  rcases Nat.lt_trichotomy index sessions.length with before | rfl | beyond
  · rw [List.getElem?_append_left before] at found
    exact .inl ⟨found, before⟩
  · rw [List.getElem?_concat_length, Option.some_inj] at found
    exact .inr ⟨rfl, found.symm⟩
  · have bounded := (List.getElem?_eq_some_iff.mp found).1
    rw [List.length_append, List.length_singleton] at bounded
    omega

/-- A start adds a session of its feed with the handler it installs. -/
theorem Stream.Delivering.start (delivering : stream.Delivering always decode feed sessions)
    (stopped : ∀ index, ¬ Live feed sessions index) (streamName : Bytes) {hasHandler : Bool}
    (installs : always → hasHandler = true) (client : Option WebSocketClient) :
    Stream.Delivering always decode feed (sessions ++ [Session.start { feed, streamName }])
      { stream with
        client
        handler := if hasHandler then some sessions.length else none } := by
  refine ⟨fun index session found isFeed => ?_, fun index session found isFeed => ?_,
    fun entry member apart => ?_, fun entry member => ?_,
    fun handler installed index session found _ => ?_⟩
  · rcases getElem?_concat_cases found with ⟨foundBefore, before⟩ | ⟨rfl, rfl⟩
    · cases delivering.served index session foundBefore isFeed with
      | given givenEq installed =>
          exact .given givenEq fun unstopped =>
            absurd ⟨session, foundBefore, isFeed, unstopped⟩ (stopped index)
      | handlerless sometimes givenEq absent =>
          refine .handlerless sometimes givenEq ?_
          cases hasHandler with
          | false => exact nofun
          | true => exact fun same => Nat.ne_of_gt before (Option.some.inj same)
    · have nothing := given_eq_nil_of_taken delivering.taken
      cases hasHandler with
      | true => exact .given nothing fun _ => rfl
      | false => exact .handlerless (fun holds => nomatch installs holds) nothing nofun
  · rcases getElem?_concat_cases found with ⟨foundBefore, -⟩ | ⟨-, rfl⟩
    · exact delivering.inTime index session foundBefore isFeed
    · exact ⟨[], rfl, fun _ => rfl⟩
  · obtain ⟨before, session, found, rest⟩ := delivering.foreign entry member apart
    have bound := (List.getElem?_eq_some_iff.mp found).1
    exact ⟨before, session, by rw [List.getElem?_append_left bound, found], rest⟩
  · rw [List.length_append]
    exact Nat.lt_add_right _ (delivering.taken entry member)
  · cases hasHandler with
    | false => cases installed
    | true =>
        obtain rfl : sessions.length = handler := Option.some.inj installed
        rcases getElem?_concat_cases found with ⟨-, before⟩ | ⟨rfl, -⟩
        · exact Nat.le_of_lt before
        · exact Nat.le_refl _

theorem Stream.Delivering.start_other {other : Feed} (different : other ≠ feed)
    (delivering : stream.Delivering always decode feed sessions) (streamName : Bytes) :
    stream.Delivering always decode feed
      (sessions.map (Session.stopFeed other) ++
        [Session.start { feed := other, streamName }]) := by
  have stopped : stream.Delivering always decode feed (sessions.map (Session.stopFeed other)) :=
    delivering.stop_other
  exact stopped.of_sameFeed (sameFeed_append _ different)

/-- A session after a message has been handed on by one of them. -/
theorem getElem?_modify_cases {position index : Nat} {session later : Session}
    {change : Session → Session} (found : sessions[position]? = some session)
    (foundLater : (sessions.modify position change)[index]? = some later) :
    position = index ∧ later = change session ∨
      position ≠ index ∧ sessions[index]? = some later := by
  rw [List.getElem?_modify] at foundLater
  by_cases here : position = index
  · subst here
    simp only [found, if_true, Option.map_eq_map, Option.map_some, Option.some_inj] at foundLater
    exact .inl ⟨rfl, foundLater.symm⟩
  · simp only [here, if_false, Option.map_eq_map, Option.map_id'] at foundLater
    exact .inr ⟨here, foundLater⟩

theorem Served.deliver {position index : Nat} {session : Session}
    (served : Served always decode stream index session) (message : Bytes)
    (apart : position ≠ index) :
    Served always decode (stream.deliver decode position message) index session := by
  have givenSame : (stream.deliver decode position message).given index = stream.given index := by
    rw [deliver_given, if_neg fun both => apart both.1, List.append_nil]
  cases served with
  | given givenEq installed =>
      refine .given (givenSame.trans givenEq) fun unstopped => ?_
      rw [deliver_handler]
      exact installed unstopped
  | handlerless sometimes givenEq absent =>
      refine .handlerless sometimes (givenSame.trans givenEq) ?_
      rw [deliver_handler]
      exact absent

/-- The session that hands the message on: its own handler is installed exactly
as long as it is not stopped. -/
theorem Served.deliver_own {index : Nat} {session : Session}
    (served : Served always decode stream index session) (message : Bytes)
    (unlessStopped : stream.handler = some index → session.stopped = false) :
    Served always decode (stream.deliver decode index message) index
      (session.handle message) := by
  have givenNow := deliver_given decode stream index index message
  cases served with
  | given givenEq installed =>
      refine .given ?_ fun unstopped => ?_
      · rw [givenNow, givenEq, handle_liveMessages, List.filterMap_append]
        cases stopped : session.stopped with
        | false => cases decoded : decode message <;> simp [installed stopped, decoded]
        | true =>
            have absent : stream.handler ≠ some index := fun present =>
              nomatch stopped.symm.trans (unlessStopped present)
            simp [absent]
      · rw [deliver_handler]
        exact installed unstopped
  | handlerless sometimes givenEq absent =>
      refine .handlerless sometimes ?_ ?_
      · rw [givenNow, givenEq]
        simp [absent]
      · rw [deliver_handler]
        exact absent

/-- A session hands a message on, and its update is given to the handler there
is. -/
theorem Stream.Delivering.deliver (delivering : stream.Delivering always decode feed sessions)
    (current : stream.Current feed sessions) {position : Nat} {session : Session}
    (found : sessions[position]? = some session) (isFeed : session.feed = feed)
    (message : Bytes) :
    (stream.deliver decode position message).Delivering always decode feed
      (sessions.modify position (Session.handle · message)) := by
  have unlessStopped : stream.handler = some position → session.stopped = false := by
    intro installed
    obtain ⟨other, foundOther, -, unstopped⟩ :=
      (current.live_iff position).mpr (current.session_of_handler position installed)
    obtain rfl : session = other := Option.some.inj (found.symm.trans foundOther)
    exact unstopped
  refine ⟨fun index later foundLater laterFeed => ?_, fun index later foundLater laterFeed => ?_,
    fun entry member apart => ?_, fun entry member => ?_,
    fun handler installed index later foundLater laterFeed => ?_⟩
  · rcases getElem?_modify_cases found foundLater with ⟨rfl, rfl⟩ | ⟨apart, foundBefore⟩
    · exact (delivering.served position session found isFeed).deliver_own message unlessStopped
    · exact (delivering.served index later foundBefore laterFeed).deliver message apart
  · rcases getElem?_modify_cases found foundLater with ⟨rfl, rfl⟩ | ⟨-, foundBefore⟩
    · exact (delivering.inTime position session found isFeed).handle message
    · exact delivering.inTime index later foundBefore laterFeed
  · rcases mem_deliver_updates decode stream member with before | ⟨installed, isPosition⟩
    · obtain ⟨earlier, other, foundOther, otherFeed, stopped⟩ :=
        delivering.foreign entry before apart
      obtain ⟨later, foundLater, laterFeed, laterStopped⟩ :
          ∃ later, (sessions.modify position (Session.handle · message))[entry.2.1]? =
            some later ∧ later.feed = other.feed ∧ later.stopped = other.stopped := by
        by_cases here : position = entry.2.1 <;> simp [here, foundOther, Session.handle]
      exact ⟨earlier, later, foundLater, laterFeed.trans otherFeed, laterStopped.trans stopped⟩
    · rw [isPosition] at apart ⊢
      have earlier := delivering.latest entry.1 installed position session found isFeed
      refine ⟨by omega, session.handle message, by simp [found], isFeed, ?_⟩
      cases stopped : session.stopped with
      | true => exact stopped
      | false =>
          exact absurd (current.handler_eq installed ⟨session, found, isFeed, stopped⟩) apart
  · rw [List.length_modify]
    rcases mem_deliver_updates decode stream member with before | ⟨installed, -⟩
    · exact delivering.taken entry before
    · obtain ⟨other, foundOther, -⟩ :=
        (current.live_iff entry.1).mpr (current.session_of_handler entry.1 installed)
      exact (List.getElem?_eq_some_iff.mp foundOther).1
  · rw [deliver_handler] at installed
    rcases getElem?_modify_cases found foundLater with ⟨rfl, rfl⟩ | ⟨-, foundBefore⟩
    · exact delivering.latest handler installed position session found isFeed
    · exact delivering.latest handler installed index later foundBefore laterFeed

/-- The streams see a session only by what it has handled. -/
theorem Stream.Delivering.modify (delivering : stream.Delivering always decode feed sessions)
    (position : Nat) {change : Session → Session}
    (keeps : ∀ session, (change session).feed = session.feed ∧
      (change session).stopped = session.stopped ∧ (change session).handled = session.handled) :
    stream.Delivering always decode feed (sessions.modify position change) :=
  delivering.of_sameFeed <| sameFeed_modify fun session _ =>
    ⟨(keeps session).1, fun _ => ⟨(keeps session).2.2, fun stopped =>
      (keeps session).2.1.trans stopped⟩⟩

end Delivering

/-- The call installs a handler if it starts a stream. -/
def Call.Installs : Call → Prop
  | .startDepth hasHandler | .startTrades hasHandler => hasHandler = true
  | .stopDepth | .stopTrades | .stop => True

/-- Whoever starts a stream in the event passes a handler. -/
def Event.Installs : Event → Prop
  | .call event => event.Installs
  | .complete _ _ => True
  | .run _ _ handling => ∀ event ∈ handling.calls, event.Installs

section Messages

variable (always : Prop) (boost : BoostJson.Library)

structure Delivering (streams : Streams) : Prop where
  depth : streams.depth.Delivering always (updateOf boost (parseDepthUpdate boost)) .depth
    streams.sessions
  trades : streams.trades.Delivering always (updateOf boost (parseTrade boost)) .trades
    streams.sessions

variable {always} {streams : Streams}

theorem stopDepth_delivering (current : Current streams)
    (delivering : Delivering always boost streams) :
    Delivering always boost (stopDepth streams) := by
  rw [stopDepth_eq current]
  exact ⟨delivering.depth.stop, delivering.trades.stop_other⟩

theorem stopTrades_delivering (current : Current streams)
    (delivering : Delivering always boost streams) :
    Delivering always boost (stopTrades streams) := by
  rw [stopTrades_eq current]
  exact ⟨delivering.depth.stop_other, delivering.trades.stop⟩

theorem call_delivering (current : Current streams)
    (delivering : Delivering always boost streams) {event : Call}
    (installs : always → event.Installs) : Delivering always boost (call streams event) := by
  cases event with
  | startDepth hasHandler =>
      rw [call, startDepth, current.depth.start_eq]
      have started := delivering.depth.stop.start (not_live_stopFeed .depth streams.sessions)
        (streams.symbol ++ ascii "@depth@100ms") installs
      rw [List.length_map] at started
      exact ⟨started _, delivering.trades.start_other (by decide) _⟩
  | startTrades hasHandler =>
      rw [call, startTrades, current.trades.start_eq]
      have started := delivering.trades.stop.start (not_live_stopFeed .trades streams.sessions)
        (streams.symbol ++ ascii "@trade") installs
      rw [List.length_map] at started
      exact ⟨delivering.depth.start_other (by decide) _, started _⟩
  | stopDepth => exact stopDepth_delivering boost current delivering
  | stopTrades => exact stopTrades_delivering boost current delivering
  | stop =>
      exact stopTrades_delivering boost (stopDepth_current current)
        (stopDepth_delivering boost current delivering)

theorem calls_delivering (calls : List Call) (current : Current streams)
    (delivering : Delivering always boost streams)
    (installs : always → ∀ event ∈ calls, event.Installs) :
    Delivering always boost (calls.foldl call streams) := by
  induction calls generalizing streams with
  | nil => exact delivering
  | cons event calls ih =>
      refine ih (call_current current event) (call_delivering boost current delivering ?_) ?_
      · exact fun holds => installs holds event List.mem_cons_self
      · exact fun holds other member => installs holds other (List.mem_cons_of_mem event member)

theorem modify_delivering (delivering : Delivering always boost streams) (index : Nat)
    {change : Session → Session}
    (keeps : ∀ session, (change session).feed = session.feed ∧
      (change session).stopped = session.stopped ∧ (change session).handled = session.handled) :
    Delivering always boost (streams.modify index change) :=
  ⟨delivering.depth.modify index keeps, delivering.trades.modify index keeps⟩

/-- The streams once the message has been logged, before the user's handler
runs. -/
def logMessage (streams : Streams) (feed : Feed) (index : Nat) (message : Bytes) : Streams :=
  match feed with
  | .depth =>
      { streams with
        depth := streams.depth.deliver (updateOf boost (parseDepthUpdate boost)) index message }
  | .trades =>
      { streams with
        trades := streams.trades.deliver (updateOf boost (parseTrade boost)) index message }

/-- A message is logged, and the user's handler runs if there is an update. -/
theorem onMessage_eq_logged (feed : Feed) (index : Nat) (message : Bytes)
    (handling : Handling) :
    onMessage boost streams feed index message handling =
        (handling.calls.foldl call (logMessage boost streams feed index message),
          handling.returns) ∨
      onMessage boost streams feed index message handling =
        (logMessage boost streams feed index message, true) := by
  cases feed with
  | depth =>
      rw [onMessage, onDepthMessage, logMessage]
      split
      next handler update received =>
        rw [deliver_of_received received]
        exact .inl rfl
      next notReceived =>
        rw [deliver_of_not_received notReceived]
        exact .inr rfl
  | trades =>
      rw [onMessage, onTradeMessage, logMessage]
      split
      next handler update received =>
        rw [deliver_of_received received]
        exact .inl rfl
      next notReceived =>
        rw [deliver_of_not_received notReceived]
        exact .inr rfl

theorem logMessage_current (current : Current streams) (feed : Feed) (index : Nat)
    (message : Bytes) : Current (logMessage boost streams feed index message) := by
  cases feed with
  | depth => exact ⟨current.depth.deliver _ index message, current.trades⟩
  | trades => exact ⟨current.depth, current.trades.deliver _ index message⟩

/-- The session hands the message on and logs it. -/
theorem logMessage_delivering (current : Current streams)
    (delivering : Delivering always boost streams) {index : Nat} {session : Session}
    (found : streams.sessions[index]? = some session) (message : Bytes) :
    Delivering always boost
      (logMessage boost (streams.modify index (Session.handle · message)) session.feed index
        message) := by
  have others : ∀ feed, session.feed ≠ feed →
      SameFeed feed streams.sessions
        (streams.sessions.modify index (Session.handle · message)) := by
    refine fun feed different => sameFeed_modify fun other foundOther => ⟨rfl, fun isFeed => ?_⟩
    obtain rfl : session = other := Option.some.inj (found.symm.trans foundOther)
    exact absurd isFeed different
  cases feedEq : session.feed with
  | depth =>
      exact ⟨delivering.depth.deliver current.depth found feedEq message,
        delivering.trades.of_sameFeed (others .trades (by simp [feedEq]))⟩
  | trades =>
      exact ⟨delivering.depth.of_sameFeed (others .depth (by simp [feedEq])),
        delivering.trades.deliver current.trades found feedEq message⟩

theorem onRead_delivering (current : Current streams)
    (delivering : Delivering always boost streams) {index : Nat} {session : Session}
    (found : streams.sessions[index]? = some session) (message : Bytes) {handling : Handling}
    (installs : always → ∀ event ∈ handling.calls, event.Installs) :
    Delivering always boost (onRead boost streams index session.feed message handling) := by
  have handledCurrent : Current (streams.modify index (Session.handle · message)) :=
    modify_current current index fun _ => ⟨rfl, rfl⟩
  have logged := logMessage_delivering boost current delivering found message
  rw [onRead]
  rcases @onMessage_eq_logged boost (streams.modify index (Session.handle · message))
    session.feed index message handling with outcome | outcome
  · have after := calls_delivering boost handling.calls
      (logMessage_current boost handledCurrent session.feed index message) logged installs
    rw [outcome]
    cases handling.returns with
    | false => exact after
    | true => exact modify_delivering boost after index fun _ => ⟨rfl, rfl, rfl⟩
  · rw [outcome]
    exact modify_delivering boost logged index fun _ => ⟨rfl, rfl, rfl⟩

theorem step_delivering {next : Streams} {event : Event} (current : Current streams)
    (delivering : Delivering always boost streams) (installs : always → event.Installs)
    (stepped : step boost streams event = some next) : Delivering always boost next := by
  cases event with
  | call event =>
      obtain rfl : call streams event = next := by simpa [step] using stepped
      exact call_delivering boost current delivering installs
  | complete index completion =>
      obtain ⟨_, _, _, rfl⟩ := (step_complete_eq_some_iff boost).mp stepped
      exact modify_delivering boost delivering index fun _ => ⟨rfl, rfl, rfl⟩
  | run index completion handling =>
      obtain ⟨session, found, _, rfl⟩ := (step_run_eq_some_iff boost).mp stepped
      have dequeued : Delivering always boost
          (streams.modify index (Session.dequeue · completion)) :=
        modify_delivering boost delivering index fun _ => ⟨rfl, rfl, rfl⟩
      have dequeuedCurrent : Current (streams.modify index (Session.dequeue · completion)) :=
        modify_current current index fun _ => ⟨rfl, rfl⟩
      have dequeuedFound := modify_getElem found (Session.dequeue · completion)
      rw [runCompletion.eq_def]
      split
      next =>
        exact onRead_delivering boost dequeuedCurrent dequeued dequeuedFound _ installs
      next => exact modify_delivering boost dequeued index fun other => callback_keeps other _

theorem run_delivering {symbol : Bytes} {events : List Event}
    (installs : always → ∀ event ∈ events, event.Installs)
    (run : runFrom (step boost) (newStreams symbol) events = some streams) :
    Delivering always boost streams := by
  have preserved : ∀ {state next : Streams} {event : Event}, (always → event.Installs) →
      Current state ∧ Delivering always boost state → step boost state event = some next →
        Current next ∧ Delivering always boost next := by
    rintro state next event eventInstalls ⟨current, delivering⟩ stepped
    exact ⟨step_current boost current stepped,
      step_delivering boost current delivering eventInstalls stepped⟩
  have initially : Delivering always boost (newStreams symbol) :=
    ⟨⟨nofun, nofun, nofun, nofun, nofun⟩, ⟨nofun, nofun, nofun, nofun, nofun⟩⟩
  exact (invariant_of_run_of_forall preserved
    (fun event member holds => installs holds event member) run
    ⟨newStreams_current symbol, initially⟩).2

/-- What the handlers of a feed are given during a run that has read these
messages on its sessions. -/
structure Stream.Delivers {Update : Type} (always : Prop) (decode : Bytes → Option Update)
    (feed : Feed) (read : Nat → List Bytes) (sessions : List Session) (stream : Stream Update) :
    Prop where
  own : ∀ index session, sessions[index]? = some session → session.feed = feed →
    stream.given index = session.liveMessages.filterMap decode ∨
      ¬ always ∧ stream.given index = []
  whole : ∀ index session, sessions[index]? = some session → session.feed = feed →
    session.liveMessages <+: read index ∧
      (session.stopped = false → session.liveMessages = read index)
  foreign : ∀ entry ∈ stream.updates, entry.1 ≠ entry.2.1 →
    entry.2.1 < entry.1 ∧ ∃ session, sessions[entry.2.1]? = some session ∧
      session.feed = feed ∧ session.stopped = true

theorem Stream.Delivering.delivers {Update : Type} {decode : Bytes → Option Update}
    {feed : Feed} {sessions : List Session} {stream : Stream Update}
    (delivering : stream.Delivering always decode feed sessions) {read : Nat → List Bytes}
    (messagesEq : ∀ index session, sessions[index]? = some session →
      session.messages = read index) : stream.Delivers always decode feed read sessions := by
  refine ⟨fun index session found isFeed => ?_, fun index session found isFeed => ?_,
    delivering.foreign⟩
  · cases delivering.served index session found isFeed with
    | given givenEq _ => exact .inl givenEq
    | handlerless sometimes givenEq _ => exact .inr ⟨sometimes, givenEq⟩
  · obtain ⟨late, handledEq, unstopped⟩ := delivering.inTime index session found isFeed
    have split : read index = session.liveMessages ++ late := by
      rw [← messagesEq index session found, Session.messages, handledEq]
      simp [Function.comp_def]
    refine ⟨⟨late, split.symm⟩, fun notStopped => ?_⟩
    rw [split, unstopped notStopped, List.append_nil]

/-- Whatever is called and whatever completes, a handler installed with a
session is given the update of each message that the session reads before its
stop, in their order and once, unless some start passes no handler; whatever
else a handler is given comes from an earlier session that has been stopped. -/
theorem updates_delivered {symbol : Bytes} {events : List Event}
    (run : runFrom (step boost) (newStreams symbol) events = some streams) :
    let read := fun index =>
      messagesRead index (trace (step boost) (newStreams symbol) events)
    let always := ∀ event ∈ events, event.Installs
    streams.depth.Delivers always (updateOf boost (parseDepthUpdate boost)) .depth read
        streams.sessions ∧
      streams.trades.Delivers always (updateOf boost (parseTrade boost)) .trades read
        streams.sessions := by
  intro read always
  have delivering : Delivering always boost streams := run_delivering boost id run
  have messagesEq : ∀ index session, streams.sessions[index]? = some session →
      session.messages = read index := fun index session found =>
    ((run_inCourse boost run).1 index session found).2
  exact ⟨delivering.depth.delivers messagesEq, delivering.trades.delivers messagesEq⟩

end Messages

/-- Two updates are read in turn. -/
theorem updates_delivered_two :
    ∃ events streams,
      runFrom (step emptyUpdates) (newStreams [98]) events = some streams ∧
        streams.depth.updates.length = 2 ∧
          streams.depth.Delivers (∀ event ∈ events, event.Installs)
            (updateOf emptyUpdates (parseDepthUpdate emptyUpdates))
            .depth
            (fun index => messagesRead index
              (trace (step emptyUpdates) (newStreams [98]) events))
            streams.sessions := by
  let completions : List Completion :=
    [.resolve none, .connect none true, .tlsHandshake none, .handshake none,
      .write (subscriptionText ([98] ++ ascii "@depth@100ms")) none, .read (.ok [7]),
      .read (.ok [8])]
  let events : List Event := .call (.startDepth true) :: completions.flatMap fun completion =>
    [.complete 0 completion, .run 0 completion { calls := [], returns := true }]
  have run : runFrom (step emptyUpdates) (newStreams [98]) events = some _ := rfl
  exact ⟨events, _, run, rfl, (updates_delivered _ run).1⟩

end Connector

end ExchangeConnectivity
