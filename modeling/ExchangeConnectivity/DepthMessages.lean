import ExchangeConnectivity.ConnectorParserDecimal
import ExchangeConnectivity.StoppedStreams

/-!
# Depth messages are read whole or not at all

The validating parser accepts a depth update or a snapshot exactly when every
field and every level is well formed, and then returns all levels in order.
Any other message ends in an exception, which `onDepthMessage` catches, so the
streams stay as they are and the session reads on.
-/

namespace ExchangeConnectivity

open ActionRuns ByteStrings FailingComputations

namespace Connector

/-- The JSON value is an array that begins with two decimal strings, those of
the level; what follows them is not looked at. -/
def IsLevel (json : Json) (level : BookLevel) : Prop :=
  ∃ price quantity rest, json = .array (.string price :: .string quantity :: rest) ∧
    parseDecimal price = .ok level.price ∧ parseDecimal quantity = .ok level.quantity

/-- The JSON value is an array with one well-formed element for each level, in
this order. -/
def AreLevels (json : Json) (levels : List BookLevel) : Prop :=
  ∃ elements, json = .array elements ∧ List.Forall₂ IsLevel elements levels

/-- The object has a field of this name, and the value of the last one is as
described. -/
def HasField (fields : List (Bytes × Json)) (key : String) (described : Json → Prop) : Prop :=
  ∃ value, BoostJson.lastField fields key = some value ∧ described value

/-- The fields of a depth update, all of them well formed. -/
structure DescribesUpdate (fields : List (Bytes × Json)) (update : DepthUpdate) : Prop where
  firstUpdateId : HasField fields "U" (Json.IsUnsigned · update.firstUpdateId)
  lastUpdateId : HasField fields "u" (Json.IsUnsigned · update.lastUpdateId)
  exchangeTimestamp : HasField fields "E" (Json.IsUnsigned · update.exchangeTimestamp)
  bids : HasField fields "b" (AreLevels · update.bids)
  asks : HasField fields "a" (AreLevels · update.asks)

structure DescribesSnapshot (fields : List (Bytes × Json)) (snapshot : Snapshot) : Prop where
  lastUpdateId : HasField fields "lastUpdateId" (Json.IsUnsigned · snapshot.lastUpdateId)
  bids : HasField fields "bids" (AreLevels · snapshot.bids)
  asks : HasField fields "asks" (AreLevels · snapshot.asks)

section

variable (boost : BoostJson.Library) (message : Bytes)

/-- The message is this depth update, nothing of it malformed. -/
def IsDepthUpdate (update : DepthUpdate) : Prop :=
  ∃ fields, boost.parse message = .ok (.object fields) ∧ DescribesUpdate fields update

def IsSnapshot (snapshot : Snapshot) : Prop :=
  ∃ fields, boost.parse message = .ok (.object fields) ∧ DescribesSnapshot fields snapshot

end

theorem parseUnsigned_eq_ok_iff (json : Json) (number : UInt64) :
    parseUnsigned json = .ok number ↔ Json.IsUnsigned json number := by
  cases json with
  | uint64 value => simp [parseUnsigned, Json.IsUnsigned, pure, Except.pure]
  | int64 value =>
      by_cases nonnegative : value ≥ 0
      · simp [parseUnsigned, Json.IsUnsigned, nonnegative, pure, Except.pure]
      · simp [parseUnsigned, Json.IsUnsigned, nonnegative, throw, throwThe, MonadExceptOf.throw]
  | _ => simp [parseUnsigned, Json.IsUnsigned, throw, throwThe, MonadExceptOf.throw]

theorem parseString_eq_ok_iff (json : Json) (text : Bytes) :
    parseString json = .ok text ↔ json = .string text := by
  cases json with
  | string value => simp [parseString, pure, Except.pure]
  | _ => simp [parseString, throw, throwThe, MonadExceptOf.throw]

theorem parseBookLevel_eq_ok_iff (json : Json) (level : BookLevel) :
    parseBookLevel json = .ok level ↔ IsLevel json level := by
  match json with
  | .array (price :: quantity :: rest) =>
      simp only [parseBookLevel, bind_eq_ok_iff, parseString_eq_ok_iff, IsLevel]
      constructor
      · rintro ⟨priceText, rfl, priceValue, priceParsed, quantityText, rfl, quantityValue,
          quantityParsed, levelEq⟩
        cases levelEq
        exact ⟨priceText, quantityText, rest, rfl, priceParsed, quantityParsed⟩
      · rintro ⟨priceText, quantityText, others, shape, priceParsed, quantityParsed⟩
        cases shape
        exact ⟨priceText, rfl, _, priceParsed, quantityText, rfl, _, quantityParsed, rfl⟩
  | .array [] | .array [_] => exact iff_of_false nofun (by rintro ⟨_, _, _, shape, -⟩; cases shape)
  | .null | .bool _ | .int64 _ | .uint64 _ | .double _ | .string _ | .object _ =>
      exact iff_of_false nofun (by rintro ⟨_, _, _, shape, -⟩; cases shape)

theorem parseLevels_eq_ok_iff (json : Json) (levels : List BookLevel) :
    parseLevels json = .ok levels ↔ AreLevels json levels := by
  match json with
  | .array elements =>
      simp only [parseLevels, mapM_eq_ok_iff, parseBookLevel_eq_ok_iff, AreLevels]
      constructor
      · exact fun related => ⟨elements, rfl, related⟩
      · rintro ⟨others, shape, related⟩
        cases shape
        exact related
  | .null | .bool _ | .int64 _ | .uint64 _ | .double _ | .string _ | .object _ =>
      exact iff_of_false nofun (by rintro ⟨_, shape, -⟩; cases shape)

theorem getRequired_eq_ok_iff (boost : BoostJson.Library) (fields : List (Bytes × Json))
    (key : String) (value : Json) :
    getRequired boost fields key = .ok value ↔ BoostJson.lastField fields key = some value := by
  rw [getRequired, boost.ifContains_eq]
  cases BoostJson.lastField fields key <;>
    simp [pure, Except.pure, throw, throwThe, MonadExceptOf.throw]

/-- Reading a required field with an exact reader. -/
theorem field_eq_ok_iff (boost : BoostJson.Library) {Value : Type}
    {read : Json → Except Fault Value} {describes : Json → Value → Prop}
    (readsExactly : ∀ json value, read json = .ok value ↔ describes json value)
    (fields : List (Bytes × Json)) (key : String) (value : Value) :
    (getRequired boost fields key >>= read) = .ok value ↔
      HasField fields key (describes · value) := by
  simp only [bind_eq_ok_iff, getRequired_eq_ok_iff, readsExactly, HasField]

section Messages

variable (boost : BoostJson.Library)

theorem parseObject_eq_ok_iff (message : Bytes) (fields : List (Bytes × Json)) :
    parseObject boost message = .ok fields ↔ boost.parse message = .ok (.object fields) := by
  rw [parseObject]
  cases boost.parse message with
  | error fault => simp
  | ok json =>
      cases json with
      | object found => simp [pure, Except.pure]
      | _ => simp [throw, throwThe, MonadExceptOf.throw]

theorem parseDepthUpdate_eq_ok_iff (message : Bytes) (update : DepthUpdate) :
    parseDepthUpdate boost message = .ok update ↔ IsDepthUpdate boost message update := by
  have unsigned := field_eq_ok_iff boost parseUnsigned_eq_ok_iff
  have levels := field_eq_ok_iff boost parseLevels_eq_ok_iff
  simp only [bind_eq_ok_iff] at unsigned levels
  simp only [parseDepthUpdate, bind_eq_ok_iff, parseObject_eq_ok_iff, IsDepthUpdate]
  constructor
  · rintro ⟨fields, parsed, _, firstFound, first, firstRead, _, lastFound, last, lastRead, _,
      timeFound, time, timeRead, _, bidsFound, bids, bidsRead, _, asksFound, asks, asksRead,
      updateEq⟩
    cases updateEq
    exact ⟨fields, parsed,
      { firstUpdateId := (unsigned fields "U" first).mp ⟨_, firstFound, firstRead⟩
        lastUpdateId := (unsigned fields "u" last).mp ⟨_, lastFound, lastRead⟩
        exchangeTimestamp := (unsigned fields "E" time).mp ⟨_, timeFound, timeRead⟩
        bids := (levels fields "b" bids).mp ⟨_, bidsFound, bidsRead⟩
        asks := (levels fields "a" asks).mp ⟨_, asksFound, asksRead⟩ }⟩
  · rintro ⟨fields, parsed, described⟩
    obtain ⟨_, firstFound, firstRead⟩ := (unsigned fields "U" _).mpr described.firstUpdateId
    obtain ⟨_, lastFound, lastRead⟩ := (unsigned fields "u" _).mpr described.lastUpdateId
    obtain ⟨_, timeFound, timeRead⟩ := (unsigned fields "E" _).mpr described.exchangeTimestamp
    obtain ⟨_, bidsFound, bidsRead⟩ := (levels fields "b" _).mpr described.bids
    obtain ⟨_, asksFound, asksRead⟩ := (levels fields "a" _).mpr described.asks
    exact ⟨fields, parsed, _, firstFound, _, firstRead, _, lastFound, _, lastRead, _, timeFound,
      _, timeRead, _, bidsFound, _, bidsRead, _, asksFound, _, asksRead, rfl⟩

theorem parseSnapshot_eq_ok_iff (message : Bytes) (snapshot : Snapshot) :
    parseSnapshot boost message = .ok snapshot ↔ IsSnapshot boost message snapshot := by
  have unsigned := field_eq_ok_iff boost parseUnsigned_eq_ok_iff
  have levels := field_eq_ok_iff boost parseLevels_eq_ok_iff
  simp only [bind_eq_ok_iff] at unsigned levels
  simp only [parseSnapshot, bind_eq_ok_iff, parseObject_eq_ok_iff, IsSnapshot]
  constructor
  · rintro ⟨fields, parsed, _, lastFound, last, lastRead, _, bidsFound, bids, bidsRead, _,
      asksFound, asks, asksRead, snapshotEq⟩
    cases snapshotEq
    exact ⟨fields, parsed,
      { lastUpdateId := (unsigned fields "lastUpdateId" last).mp ⟨_, lastFound, lastRead⟩
        bids := (levels fields "bids" bids).mp ⟨_, bidsFound, bidsRead⟩
        asks := (levels fields "asks" asks).mp ⟨_, asksFound, asksRead⟩ }⟩
  · rintro ⟨fields, parsed, described⟩
    obtain ⟨_, lastFound, lastRead⟩ :=
      (unsigned fields "lastUpdateId" _).mpr described.lastUpdateId
    obtain ⟨_, bidsFound, bidsRead⟩ := (levels fields "bids" _).mpr described.bids
    obtain ⟨_, asksFound, asksRead⟩ := (levels fields "asks" _).mpr described.asks
    exact ⟨fields, parsed, _, lastFound, _, lastRead, _, bidsFound, _, bidsRead, _, asksFound,
      _, asksRead, rfl⟩

theorem parseUnsigned_avoids (json : Json) :
    Avoids .overflow (fun _ => True) (parseUnsigned json) := by
  cases json with
  | uint64 value => trivial
  | int64 value =>
      rw [parseUnsigned]
      split
      · trivial
      · exact fun equal => by cases equal
  | _ => exact fun equal => by cases equal

theorem parseString_avoids (json : Json) :
    Avoids .overflow (fun _ => True) (parseString json) := by
  cases json with
  | string value => trivial
  | _ => exact fun equal => by cases equal

theorem parseBookLevel_avoids (json : Json) :
    Avoids .overflow (fun _ => True) (parseBookLevel json) := by
  match json with
  | .array (price :: quantity :: rest) =>
      exact (parseString_avoids price).bind fun priceText _ =>
        (parseDecimal_avoids priceText).bind fun _ _ =>
          (parseString_avoids quantity).bind fun quantityText _ =>
            (parseDecimal_avoids quantityText).bind fun _ _ => trivial
  | .array [] | .array [_] | .null | .bool _ | .int64 _ | .uint64 _ | .double _ | .string _
  | .object _ => exact fun equal => by cases equal

theorem parseLevels_avoids (json : Json) :
    Avoids .overflow (fun _ => True) (parseLevels json) := by
  match json with
  | .array elements => exact Avoids.mapM parseBookLevel_avoids elements
  | .null | .bool _ | .int64 _ | .uint64 _ | .double _ | .string _ | .object _ =>
      exact fun equal => by cases equal

theorem getRequired_avoids (fields : List (Bytes × Json)) (key : String) :
    Avoids .overflow (fun _ => True) (getRequired boost fields key) := by
  rw [getRequired]
  split
  · exact fun equal => by cases equal
  · trivial

section Exceptions

variable {message : Bytes} (parsed : boost.parse message ≠ .error .overflow)
include parsed

theorem parseObject_avoids :
    Avoids .overflow (fun _ => True) (parseObject boost message) := by
  rw [parseObject]
  cases outcome : boost.parse message with
  | error fault =>
      rw [outcome] at parsed
      exact fun equal => parsed (congrArg Except.error equal)
  | ok json =>
      cases json with
      | object fields => trivial
      | _ => exact fun equal => by cases equal

theorem parseDepthUpdate_avoids :
    Avoids .overflow (fun _ => True) (parseDepthUpdate boost message) :=
  (parseObject_avoids boost parsed).bind fun object _ =>
    (getRequired_avoids boost object "U").bind fun first _ =>
      (parseUnsigned_avoids first).bind fun _ _ =>
        (getRequired_avoids boost object "u").bind fun last _ =>
          (parseUnsigned_avoids last).bind fun _ _ =>
            (getRequired_avoids boost object "E").bind fun time _ =>
              (parseUnsigned_avoids time).bind fun _ _ =>
                (getRequired_avoids boost object "b").bind fun bids _ =>
                  (parseLevels_avoids bids).bind fun _ _ =>
                    (getRequired_avoids boost object "a").bind fun asks _ =>
                      (parseLevels_avoids asks).bind fun _ _ => trivial

theorem parseSnapshot_avoids :
    Avoids .overflow (fun _ => True) (parseSnapshot boost message) :=
  (parseObject_avoids boost parsed).bind fun object _ =>
    (getRequired_avoids boost object "lastUpdateId").bind fun last _ =>
      (parseUnsigned_avoids last).bind fun _ _ =>
        (getRequired_avoids boost object "bids").bind fun bids _ =>
          (parseLevels_avoids bids).bind fun _ _ =>
            (getRequired_avoids boost object "asks").bind fun asks _ =>
              (parseLevels_avoids asks).bind fun _ _ => trivial

end Exceptions

/-- `onDepthMessage` catches the exception, and nothing has changed. -/
theorem onDepthMessage_of_malformed {message : Bytes}
    (malformed : ∀ update, ¬ IsDepthUpdate boost message update) (streams : Streams)
    (session : Nat) (handling : Handling) :
    onDepthMessage boost streams session message handling = (streams, true) := by
  rw [onDepthMessage]
  split
  next handler update received =>
    rw [Stream.received] at received
    obtain ⟨isResponse, _, received⟩ := bind_eq_ok_iff.mp received
    cases isResponse with
    | true => cases received
    | false =>
        obtain ⟨parsed, accepted, _⟩ := bind_eq_ok_iff.mp received
        exact absurd ((parseDepthUpdate_eq_ok_iff boost message parsed).mp accepted)
          (malformed parsed)
  next => rfl

/-- The handler is called with the whole update, or nothing has changed. -/
theorem onDepthMessage_cases (streams : Streams) (session : Nat) (message : Bytes)
    (handling : Handling) :
    onDepthMessage boost streams session message handling = (streams, true) ∨
      ∃ handler update, streams.depth.handler = some handler ∧
        IsDepthUpdate boost message update ∧
        onDepthMessage boost streams session message handling =
          (handling.calls.foldl call
              { streams with
                depth :=
                  { streams.depth with
                    updates := streams.depth.updates ++ [(handler, session, update)] } },
            handling.returns) := by
  rw [onDepthMessage]
  split
  next handler update received =>
    have installed := handler_of_received received
    rw [Stream.received] at received
    obtain ⟨isResponse, _, received⟩ := bind_eq_ok_iff.mp received
    cases isResponse with
    | true => cases received
    | false =>
        obtain ⟨parsed, accepted, received⟩ := bind_eq_ok_iff.mp received
        rw [installed] at received
        cases received
        have complete := (parseDepthUpdate_eq_ok_iff boost message update).mp accepted
        exact .inr ⟨handler, update, installed, complete, rfl⟩
  next => exact .inl rfl

/-- The handler there is gets a whole update that does not answer the
subscription. -/
theorem onDepthMessage_of_whole {message : Bytes} {update : DepthUpdate}
    (whole : IsDepthUpdate boost message update)
    (plain : isSubscriptionResponse boost message = .ok false) {streams : Streams}
    {handler : Nat} (installed : streams.depth.handler = some handler) (session : Nat)
    (handling : Handling) :
    onDepthMessage boost streams session message handling =
      (handling.calls.foldl call
          { streams with
            depth :=
              { streams.depth with
                updates := streams.depth.updates ++ [(handler, session, update)] } },
        handling.returns) := by
  have received : streams.depth.received boost (parseDepthUpdate boost) message =
      .ok (some (handler, update)) := by
    rw [Stream.received, plain, installed,
      (parseDepthUpdate_eq_ok_iff boost message update).mpr whole]
    rfl
  rw [onDepthMessage, received]

/-- The session of a malformed message reads the next one. -/
theorem onRead_of_malformed {message : Bytes}
    (malformed : ∀ update, ¬ IsDepthUpdate boost message update) (streams : Streams)
    (index : Nat) (handling : Handling) :
    onRead boost streams index .depth message handling =
      (streams.modify index (Session.handle · message)).modify index Session.read := by
  rw [onRead, onMessage, onDepthMessage_of_malformed boost malformed]

/-- The session has called its message handler with the message. -/
def Received (streams : Streams) (index : Nat) (message : Bytes) : Prop :=
  ∃ session, streams.sessions[index]? = some session ∧
    message ∈ session.handled.map Prod.snd

/-- Every update given to a depth handler is a whole message of its session. -/
def DeliversWhole (streams : Streams) : Prop :=
  ∀ entry ∈ streams.depth.updates, ∃ message,
    Received streams entry.2.1 message ∧ IsDepthUpdate boost message entry.2.2

theorem Received.modify {streams : Streams} {position index : Nat} {message : Bytes}
    (received : Received streams position message) {change : Session → Session}
    (keeps : ∀ session, session.handled ⊆ (change session).handled) :
    Received (streams.modify index change) position message := by
  obtain ⟨session, found, member⟩ := received
  by_cases here : index = position
  · subst here
    exact ⟨change session, modify_getElem found change, List.map_subset _ (keeps session) member⟩
  · refine ⟨session, ?_, member⟩
    simp [Streams.modify, here, found]

theorem Received.calls {streams : Streams} {index : Nat} {message : Bytes}
    (received : Received streams index message) (current : Current streams)
    (calls : List Call) : Received (calls.foldl call streams) index message := by
  obtain ⟨session, found, member⟩ := received
  obtain ⟨after, foundAfter, _, _, handledEq, _⟩ := calls_session calls current found
  exact ⟨after, foundAfter, handledEq ▸ member⟩

theorem calls_updates (calls : List Call) {streams : Streams} (current : Current streams) :
    (calls.foldl call streams).depth.updates = streams.depth.updates := by
  induction calls generalizing streams with
  | nil => rfl
  | cons event calls ih =>
      rw [List.foldl_cons, ih (call_current current event), (call_updates current event).1]

theorem DeliversWhole.modify {streams : Streams} (whole : DeliversWhole boost streams)
    {index : Nat} {change : Session → Session}
    (keeps : ∀ session, session.handled ⊆ (change session).handled) :
    DeliversWhole boost (streams.modify index change) := by
  intro entry member
  obtain ⟨message, received, complete⟩ := whole entry member
  exact ⟨message, received.modify keeps, complete⟩

theorem DeliversWhole.calls {streams : Streams} (whole : DeliversWhole boost streams)
    (current : Current streams) (calls : List Call) :
    DeliversWhole boost (calls.foldl call streams) := by
  intro entry member
  rw [calls_updates calls current] at member
  obtain ⟨message, received, complete⟩ := whole entry member
  exact ⟨message, received.calls current calls, complete⟩

/-- A message the session has received adds at most its own update. -/
theorem DeliversWhole.onMessage {streams : Streams} (whole : DeliversWhole boost streams)
    (current : Current streams) {index : Nat} {message : Bytes}
    (received : Received streams index message) (feed : Feed) (handling : Handling) :
    DeliversWhole boost (onMessage boost streams feed index message handling).1 := by
  cases feed with
  | depth =>
      rw [Connector.onMessage]
      rcases onDepthMessage_cases boost streams index message handling with
        unchanged | ⟨handler, update, _, complete, outcome⟩
      · rw [unchanged]
        exact whole
      · rw [outcome]
        refine DeliversWhole.calls boost ?_ ?_ handling.calls
        · intro entry member
          rcases List.mem_append.mp member with before | new
          · exact whole entry before
          · rw [List.mem_singleton.mp new]
            exact ⟨message, received, complete⟩
        · exact ⟨⟨current.depth.live_iff, current.depth.session_of_handler⟩, current.trades⟩
  | trades =>
      rw [Connector.onMessage, onTradeMessage]
      split
      next handler trade _ =>
        let updates := streams.trades.updates ++ [(handler, index, trade)]
        have logged : DeliversWhole boost
            { streams with trades := { streams.trades with updates } } := whole
        refine logged.calls boost ?_ handling.calls
        exact ⟨current.depth, ⟨current.trades.live_iff, current.trades.session_of_handler⟩⟩
      · exact whole

theorem DeliversWhole.onRead {streams : Streams} (whole : DeliversWhole boost streams)
    (current : Current streams) {index : Nat} {session : Session}
    (found : streams.sessions[index]? = some session) (feed : Feed) (message : Bytes)
    (handling : Handling) :
    DeliversWhole boost (onRead boost streams index feed message handling) := by
  have handledWhole : DeliversWhole boost (streams.modify index (Session.handle · message)) :=
    whole.modify boost fun session => List.subset_append_left _ _
  have handledCurrent : Current (streams.modify index (Session.handle · message)) :=
    modify_current current index fun _ => ⟨rfl, rfl⟩
  have received : Received (streams.modify index (Session.handle · message)) index message :=
    ⟨_, modify_getElem found _, by simp [Session.handle]⟩
  have after := handledWhole.onMessage boost handledCurrent received feed handling
  rw [Connector.onRead]
  split
  next next outcome =>
    rw [outcome] at after
    exact after.modify boost fun _ => List.Subset.refl _
  next next outcome =>
    rw [outcome] at after
    exact after

theorem step_deliversWhole {streams next : Streams} {event : Event}
    (current : Current streams) (whole : DeliversWhole boost streams)
    (stepped : step boost streams event = some next) : DeliversWhole boost next := by
  cases event with
  | call event =>
      obtain rfl : call streams event = next := by simpa [step] using stepped
      exact whole.calls boost current [event]
  | complete index completion =>
      obtain ⟨_, _, _, rfl⟩ := (step_complete_eq_some_iff boost).mp stepped
      exact whole.modify boost fun _ => List.Subset.refl _
  | run index completion handling =>
      obtain ⟨session, found, _, rfl⟩ := (step_run_eq_some_iff boost).mp stepped
      have dequeuedWhole : DeliversWhole boost
          (streams.modify index (Session.dequeue · completion)) :=
        whole.modify boost fun _ => List.Subset.refl _
      have dequeuedCurrent : Current (streams.modify index (Session.dequeue · completion)) :=
        modify_current current index fun _ => ⟨rfl, rfl⟩
      have dequeuedFound := modify_getElem found (Session.dequeue · completion)
      rw [runCompletion.eq_def]
      split
      next => exact dequeuedWhole.onRead boost dequeuedCurrent dequeuedFound _ _ handling
      next =>
        refine dequeuedWhole.modify boost fun other => ?_
        rw [(callback_keeps other _).2.2]
        exact List.Subset.refl _

theorem deliversWhole_of_run {symbol : Bytes} {events : List Event} {streams : Streams}
    (reached : runFrom (step boost) (newStreams symbol) events = some streams) :
    DeliversWhole boost streams := by
  have preserved : ∀ {state next : Streams} {event : Event},
      Current state ∧ DeliversWhole boost state → step boost state event = some next →
        Current next ∧ DeliversWhole boost next := by
    rintro state next event ⟨current, whole⟩ stepped
    exact ⟨step_current boost current stepped, step_deliversWhole boost current whole stepped⟩
  exact (invariant_of_run preserved reached ⟨newStreams_current symbol, nofun⟩).2

/-- The reader yields the values described, and any other message ends in an
exception; no integer operation leaves its type on the way. -/
structure ReadsExactly {Value : Type} (read : Bytes → Except Fault Value)
    (describes : Bytes → Value → Prop) : Prop where
  accepts : ∀ message value, read message = .ok value ↔ describes message value
  throws : ∀ message, (∀ value, ¬ describes message value) →
    ∃ exception, read message = .error exception ∧
      (exception = .overflow → boost.parse message = .error .overflow)

theorem readsExactly_of_avoids {Value : Type} {read : Bytes → Except Fault Value}
    {describes : Bytes → Value → Prop}
    (accepts : ∀ message value, read message = .ok value ↔ describes message value)
    (avoids : ∀ message, boost.parse message ≠ .error .overflow →
      Avoids .overflow (fun _ => True) (read message)) :
    ReadsExactly boost read describes := by
  refine ⟨accepts, fun message malformed => ?_⟩
  cases outcome : read message with
  | ok value => exact absurd ((accepts message value).mp outcome) (malformed value)
  | error exception =>
      refine ⟨exception, rfl, ?_⟩
      rintro rfl
      by_contra sound
      exact (avoids message sound).ne_error outcome

/-- Both readers are exact for every JSON library, a malformed message of the
depth stream changes nothing but that its session reads on, the handler that is
installed is given every other one that does not answer the subscription, and
every update given to a depth handler during a run is a whole message of its
session. -/
theorem depthMessages_allOrNothing :
    ReadsExactly boost (parseDepthUpdate boost) (IsDepthUpdate boost) ∧
      ReadsExactly boost (parseSnapshot boost) (IsSnapshot boost) ∧
      (∀ message, (∀ update, ¬ IsDepthUpdate boost message update) →
        ∀ streams index handling,
          onDepthMessage boost streams index message handling = (streams, true) ∧
            onRead boost streams index .depth message handling =
              (streams.modify index (Session.handle · message)).modify index Session.read) ∧
      (∀ message update, IsDepthUpdate boost message update →
        isSubscriptionResponse boost message = .ok false →
          ∀ streams index handling handler, streams.depth.handler = some handler →
            onDepthMessage boost streams index message handling =
              (handling.calls.foldl call
                  { streams with
                    depth :=
                      { streams.depth with
                        updates := streams.depth.updates ++ [(handler, index, update)] } },
                handling.returns)) ∧
      ∀ symbol events streams,
        runFrom (step boost) (newStreams symbol) events = some streams →
          DeliversWhole boost streams := by
  refine ⟨?_, ?_, ?_, ?_, ?_⟩
  · exact readsExactly_of_avoids boost (parseDepthUpdate_eq_ok_iff boost)
      fun _ => parseDepthUpdate_avoids boost
  · exact readsExactly_of_avoids boost (parseSnapshot_eq_ok_iff boost)
      fun _ => parseSnapshot_avoids boost
  · intro message malformed streams index handling
    exact ⟨onDepthMessage_of_malformed boost malformed streams index handling,
      onRead_of_malformed boost malformed streams index handling⟩
  · intro message update whole plain streams index handling handler installed
    exact onDepthMessage_of_whole boost whole plain installed index handling
  · intro symbol events streams reached
    exact deliversWhole_of_run boost reached

end Messages

/-- Of two messages the first is an update, which the handler is given, and the
second is malformed. -/
theorem depthMessages_allOrNothing_two :
    ∃ boost events streams update,
      runFrom (step boost) (newStreams [98]) events = some streams ∧
        streams.sessions.map (fun session => session.handled.map Prod.snd) = [[[7], [8]]] ∧
        streams.depth.updates = [(0, 0, update)] ∧
        IsDepthUpdate boost [7] update ∧ (∀ update, ¬ IsDepthUpdate boost [8] update) ∧
          DeliversWhole boost streams := by
  let boost := BoostJson.Library.documented fun message =>
    .ok (if message = [7] then emptyUpdate else .null)
  let completions : List Completion :=
    [.resolve none, .connect none true, .tlsHandshake none, .handshake none,
      .write (subscriptionText ([98] ++ ascii "@depth@100ms")) none, .read (.ok [7]),
      .read (.ok [8])]
  let events : List Event := .call (.startDepth true) :: completions.flatMap fun completion =>
    [.complete 0 completion, .run 0 completion { calls := [], returns := true }]
  have run : runFrom (step boost) (newStreams [98]) events = some _ := rfl
  obtain ⟨exact, -, -, -, whole⟩ := depthMessages_allOrNothing boost
  refine ⟨boost, events, _, _, run, rfl, rfl, (exact.accepts [7] _).mp rfl, fun update => ?_,
    whole _ _ _ run⟩
  rw [← exact.accepts]
  nofun

end Connector

end ExchangeConnectivity
