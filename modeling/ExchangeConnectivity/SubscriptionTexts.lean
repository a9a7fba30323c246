import ExchangeConnectivity.ConnectorSessions
import ExchangeConnectivity.JsonTextLengths

/-!
# The subscriptions of the connector as JSON texts

A session copies the name of its stream, and with it the symbol the connector
was made for, into the subscription unescaped.  What it writes subscribes to that
stream exactly if the symbol is UTF-8 and nothing in it needs an escape.
-/

namespace ExchangeConnectivity

open ActionRuns ByteStrings JsonTexts TextReaders

namespace Connector

/-- The request that subscribes to a stream. -/
def subscription (streamName : Bytes) : Value :=
  .object [(ascii "method", .string (ascii "SUBSCRIBE")),
    (ascii "params", .array [.string streamName]), (ascii "id", .number 1)]

theorem subscriptionText_eq (streamName : Bytes) :
    subscriptionText streamName =
      ascii "\x7b" ++ (quoted (ascii "method") ++ ':'.toUInt8 ::
        (quoted (ascii "SUBSCRIBE") ++ ','.toUInt8 :: (quoted (ascii "params") ++ ':'.toUInt8 ::
          (ascii "[" ++ (quoted streamName ++ ']'.toUInt8 :: ','.toUInt8 ::
            (quoted (ascii "id") ++ ':'.toUInt8 ::
              (DecimalNumerals.signedBytes 1 ++ ['\x7d'.toUInt8]))))))) := by
  simp only [subscriptionText, quoted, List.append_assoc, List.cons_append, List.nil_append]
  rfl

theorem reads_name_of_all {name : String} (plain : (ascii name).all isUnescaped = true)
    (rest : Bytes) : Reads string (quoted (ascii name) ++ rest) (ascii name) rest :=
  reads_string_unescaped (List.all_eq_true.mp plain) rest

theorem decode_subscriptionText {streamName : Bytes} (unescaped : Unescaped streamName) :
    decode (subscriptionText streamName) = some (subscription streamName) := by
  obtain ⟨fuel, enough⟩ : ∃ fuel,
      3 * (subscriptionText streamName).length + 3 = fuel + 12 := by
    refine ⟨3 * (subscriptionText streamName).length - 9, ?_⟩
    have long : 3 ≤ (subscriptionText streamName).length := by
      rw [subscriptionText_eq]
      simp only [quoted, List.length_append, List.length_cons]
      omega
    omega
  have comma : ∀ others : Bytes, Dense (','.toUInt8 :: others) := dense_cons (by decide)
  have bracket : ∀ others : Bytes, Dense (']'.toUInt8 :: others) := dense_cons (by decide)
  have brace : Dense ['\x7d'.toUInt8] := dense_cons (by decide) []
  have nothing : Dense [] := by
    rintro next member
    cases member
  have ends : EndsNumber ['\x7d'.toUInt8] := by
    rintro next member
    cases member
    decide
  have params : ∀ rest, Reads (element (fuel + 8))
      (ascii "[" ++ (quoted streamName ++ ']'.toUInt8 :: ','.toUInt8 :: rest))
      (.array [.string streamName]) (','.toUInt8 :: rest) := by
    intro rest
    refine reads_element_array (reads_elements rfl (reads_moreElements_last ?_)) (comma rest)
    exact reads_element_string (reads_string_unescaped unescaped _) (bracket _)
  unfold decode
  rw [enough, readAll_eq_some_iff, subscriptionText_eq]
  apply reads_element_object _ nothing
  apply reads_members rfl
  apply reads_moreMembers_cons (reads_name_of_all (by rfl) _)
  · exact reads_element_string (reads_name_of_all (by rfl) _) (comma _)
  apply reads_moreMembers_cons (reads_name_of_all (by rfl) _)
  · exact params _
  apply reads_moreMembers_last (reads_name_of_all (by rfl) _)
  exact reads_element_number 1 ends brace

/-- The text is as short as any text of the request. -/
theorem subscriptionText_length (streamName : Bytes) :
    (subscriptionText streamName).length = leastLength (subscription streamName) := by
  have before : (ascii "\x7b\"method\":\"SUBSCRIBE\",\"params\":[\"").length = 33 := by decide
  have after : (ascii "\"],\"id\":1\x7d").length = 10 := by decide
  have names : (ascii "method").length = 6 ∧ (ascii "SUBSCRIBE").length = 9 ∧
      (ascii "params").length = 6 ∧ (ascii "id").length = 2 := by decide
  simp only [subscriptionText, List.length_append, before, after, subscription, leastLength,
    leastMembers, leastElements, names]
  omega

theorem decode_subscriptionText_iff (streamName : Bytes) :
    decode (subscriptionText streamName) = some (subscription streamName) ↔
      Unescaped streamName := by
  constructor
  · intro decoded
    obtain ⟨_, _, _, ⟨plain, _⟩, _⟩ : Plain (subscription streamName) :=
      (spelled_of_decode decoded).2 (subscriptionText_length streamName)
    exact plain
  · exact decode_subscriptionText

theorem isUtf8_subscriptionText_iff (streamName : Bytes) :
    IsUtf8 (subscriptionText streamName) ↔ IsUtf8 streamName := by
  have before : SevenBit (ascii "\x7b\"method\":\"SUBSCRIBE\",\"params\":[\"") := by decide
  have after : SevenBit (ascii "\"],\"id\":1\x7d") := by decide
  rw [subscriptionText]
  constructor
  · intro isUtf8
    exact (isUtf8.of_append_right after).of_append_left before
  · intro isUtf8
    exact (before.isUtf8.append isUtf8).append after.isUtf8

/-- The bytes written are a JSON text of the request. -/
theorem isJsonText_subscriptionText_iff (streamName : Bytes) :
    IsJsonText (subscriptionText streamName) (subscription streamName) ↔
      IsUtf8 streamName ∧ Unescaped streamName := by
  rw [← isUtf8_subscriptionText_iff, ← decode_subscriptionText_iff]
  constructor
  · exact fun isText => ⟨isText.utf8, isText.decodes⟩
  · exact fun both => ⟨both.1, both.2⟩

/-- The session is for its feed's stream of the symbol. -/
def Session.NamedFor (symbol : Bytes) (session : Session) : Prop :=
  session.streamName = session.feed.streamName symbol

/-- All sessions are for streams of the connector's symbol. -/
structure Named (symbol : Bytes) (streams : Streams) : Prop where
  symbol_eq : streams.symbol = symbol
  everywhere : Everywhere 0 (fun _ session => session.NamedFor symbol) streams.sessions

theorem kept_namedFor (symbol : Bytes) :
    Kept symbol 0 fun _ session => session.NamedFor symbol where
  release := fun _ _ named => named
  start := fun _ _ _ => rfl

theorem callback_streamName (session : Session) (completion : Completion) :
    (session.callback completion).streamName = session.streamName := by
  have reported : ∀ text error,
      (session.reportError text error).streamName = session.streamName := by
    intro text error
    rw [Session.reportError]
    split <;> rfl
  cases completion with
  | resolve error | tlsHandshake error | handshake error | write _ error =>
      cases error with
      | some error => exact reported _ error
      | none => rfl
  | connect error serverNameSet =>
      cases error with
      | some error => exact reported _ error
      | none => cases serverNameSet <;> rfl
  | read result =>
      cases result with
      | ok message => rfl
      | error error =>
          rw [Session.callback]
          split
          · exact reported _ error
          · rfl

section Named

variable {symbol : Bytes} {streams : Streams} (boost : BoostJson.Library)

theorem Named.call (named : Named symbol streams) (event : Call) :
    Named symbol (call streams event) :=
  ⟨(call_symbol streams event).trans named.symbol_eq,
    call_everywhere (kept_namedFor symbol) named.symbol_eq named.everywhere event⟩

theorem Named.calls (named : Named symbol streams) (calls : List Call) :
    Named symbol (calls.foldl Connector.call streams) := by
  induction calls generalizing streams with
  | nil => exact named
  | cons event calls ih => exact ih (named.call event)

theorem Named.modify (named : Named symbol streams) (index : Nat) {change : Session → Session}
    (keeps : ∀ session, (change session).feed = session.feed ∧
      (change session).streamName = session.streamName) :
    Named symbol (streams.modify index change) := by
  refine ⟨named.symbol_eq, named.everywhere.modify fun session found => ?_⟩
  have namedFor := named.everywhere.holds index session found
  rw [Session.NamedFor, (keeps session).1, (keeps session).2]
  exact namedFor

theorem Named.onMessage (named : Named symbol streams) (feed : Feed) (index : Nat)
    (message : Bytes) (handling : Handling) :
    Named symbol (onMessage boost streams feed index message handling).1 := by
  cases feed with
  | depth =>
      rw [Connector.onMessage, onDepthMessage]
      split
      · refine Named.calls ?_ handling.calls
        exact ⟨named.symbol_eq, named.everywhere⟩
      · exact named
  | trades =>
      rw [Connector.onMessage, onTradeMessage]
      split
      · refine Named.calls ?_ handling.calls
        exact ⟨named.symbol_eq, named.everywhere⟩
      · exact named

theorem Named.onRead (named : Named symbol streams) (index : Nat) (feed : Feed)
    (message : Bytes) (handling : Handling) :
    Named symbol (onRead boost streams index feed message handling) := by
  have handled : Named symbol (streams.modify index (Session.handle · message)) :=
    named.modify index fun _ => ⟨rfl, rfl⟩
  have after := handled.onMessage boost feed index message handling
  rw [Connector.onRead]
  cases returned : Connector.onMessage boost (streams.modify index (Session.handle · message))
      feed index message handling with
  | mk later returns =>
      rw [returned] at after
      cases returns with
      | false => exact after
      | true => exact after.modify index fun _ => ⟨rfl, rfl⟩

theorem Named.step {next : Streams} {event : Event} (named : Named symbol streams)
    (stepped : step boost streams event = some next) : Named symbol next := by
  cases event with
  | call event =>
      obtain rfl : Connector.call streams event = next := by simpa [Connector.step] using stepped
      exact named.call event
  | complete index completion =>
      obtain ⟨_, _, _, rfl⟩ := (step_complete_eq_some_iff boost).mp stepped
      exact named.modify index fun _ => ⟨rfl, rfl⟩
  | run index completion handling =>
      obtain ⟨session, _, _, rfl⟩ := (step_run_eq_some_iff boost).mp stepped
      have dequeued : Named symbol (streams.modify index (Session.dequeue · completion)) :=
        named.modify index fun _ => ⟨rfl, rfl⟩
      unfold runCompletion
      split
      · exact dequeued.onRead boost index session.feed _ handling
      · exact dequeued.modify index fun before =>
          ⟨(callback_keeps before _).1, callback_streamName before _⟩

end Named

/-- Lower case needs the same escapes. -/
theorem unescaped_streamName_iff (symbol : Bytes) (feed : Feed) :
    Unescaped (feed.streamName (toLower symbol)) ↔ Unescaped symbol := by
  have sameByte : ∀ byte : UInt8, isUnescaped
      (if 'A'.toUInt8 ≤ byte ∧ byte ≤ 'Z'.toUInt8 then byte + 32 else byte) =
        isUnescaped byte := by
    intro byte
    have all : ∀ index : Fin 256, isUnescaped (if 'A'.toUInt8 ≤ UInt8.ofFin index ∧
        UInt8.ofFin index ≤ 'Z'.toUInt8 then UInt8.ofFin index + 32 else UInt8.ofFin index) =
          isUnescaped (UInt8.ofFin index) := by
      decide +kernel
    exact all byte.toFin
  have suffixes : (ascii "@depth@100ms").all isUnescaped = true ∧
      (ascii "@trade").all isUnescaped = true := by decide
  have lower : Unescaped (toLower symbol) ↔ Unescaped symbol := by
    simp only [Unescaped, toLower, List.forall_mem_map, sameByte]
  cases feed with
  | depth =>
      rw [Feed.streamName, Unescaped, List.forall_mem_append]
      exact (and_iff_left (List.all_eq_true.mp suffixes.1)).trans lower
  | trades =>
      rw [Feed.streamName, Unescaped, List.forall_mem_append]
      exact (and_iff_left (List.all_eq_true.mp suffixes.2)).trans lower

theorem keepsHighBytes_lower : IsUtf8.KeepsHighBytes fun byte =>
    if 'A'.toUInt8 ≤ byte ∧ byte ≤ 'Z'.toUInt8 then byte + 32 else byte := by
  have all : ∀ index : Fin 256, let byte := UInt8.ofFin index
      let lower := if 'A'.toUInt8 ≤ byte ∧ byte ≤ 'Z'.toUInt8 then byte + 32 else byte
      (lower.toNat < 0x80 ↔ byte.toNat < 0x80) ∧ (¬ byte.toNat < 0x80 → lower = byte) := by
    decide +kernel
  exact ⟨fun byte => (all byte.toFin).1, fun byte => (all byte.toFin).2⟩

theorem isUtf8_streamName_iff (symbol : Bytes) (feed : Feed) :
    IsUtf8 (feed.streamName (toLower symbol)) ↔ IsUtf8 symbol := by
  have suffixes : SevenBit (ascii "@depth@100ms") ∧ SevenBit (ascii "@trade") := by decide
  have lower : IsUtf8 (toLower symbol) ↔ IsUtf8 symbol := IsUtf8.map_iff keepsHighBytes_lower
  rw [← lower]
  cases feed with
  | depth =>
      rw [Feed.streamName]
      exact ⟨fun isUtf8 => isUtf8.of_append_right suffixes.1,
        fun isUtf8 => isUtf8.append suffixes.1.isUtf8⟩
  | trades =>
      rw [Feed.streamName]
      exact ⟨fun isUtf8 => isUtf8.of_append_right suffixes.2,
        fun isUtf8 => isUtf8.append suffixes.2.isUtf8⟩

/-- A session writes nothing but the subscription to its stream. -/
theorem written_eq {session : Session} (onCourse : OnCourse session) {text : Bytes}
    (written : .write text ∈ session.operations) : text = subscriptionText session.streamName := by
  have member := onCourse.in_order.subset written
  simpa [reading, subscribing, List.mem_replicate] using member

section Runs

variable {symbol : Bytes} {streams : Streams} (boost : BoostJson.Library)

/-- Whatever is called and whatever completes, what a session writes is a JSON
text that subscribes to its feed's stream of the symbol, in lower case, exactly
if the symbol is UTF-8 and no byte of it needs an escape. -/
theorem subscriptions_decode_iff {events : List Event}
    (run : runFrom (step boost) (newStreams symbol) events = some streams) :
    ∀ session ∈ streams.sessions, ∀ text, .write text ∈ session.operations →
      (IsJsonText text (subscription (session.feed.streamName (toLower symbol))) ↔
        IsUtf8 symbol ∧ Unescaped symbol) := by
  intro session member text written
  obtain ⟨index, found⟩ := List.mem_iff_getElem?.mp member
  have named : Named (toLower symbol) streams :=
    invariant_of_run (fun named stepped => named.step boost stepped) run
      ⟨rfl, fun _ _ found => by simp [newStreams] at found, Nat.zero_le _⟩
  have streamEq : session.streamName = _ := named.everywhere.holds index session found
  obtain ⟨onCourse, -⟩ := (run_inCourse boost run).1 index session found
  rw [written_eq onCourse written, streamEq, isJsonText_subscriptionText_iff,
    isUtf8_streamName_iff, unescaped_streamName_iff]

end Runs

/-- The depth stream of `BTCUSDT`. -/
theorem subscriptions_decode_depth :
    ∃ events streams text,
      runFrom (step emptyUpdates) (newStreams (ascii "BTCUSDT")) events =
          some streams ∧
        (∃ session ∈ streams.sessions, .write text ∈ session.operations) ∧
          IsJsonText text (subscription (ascii "btcusdt@depth@100ms")) := by
  let completions : List Completion :=
    [.resolve none, .connect none true, .tlsHandshake none, .handshake none]
  let events : List Event := .call (.startDepth true) :: completions.flatMap fun completion =>
    [.complete 0 completion, .run 0 completion { calls := [], returns := true }]
  have completes : (runFrom (step emptyUpdates) (newStreams (ascii "BTCUSDT"))
      events).map (fun streams => streams.sessions.map fun session =>
        (session.feed, session.operations)) =
          some [(.depth, subscribing (ascii "btcusdt@depth@100ms"))] := by
    decide +kernel
  obtain ⟨streams, run, ended⟩ := Option.map_eq_some_iff.mp completes
  obtain ⟨session, sessionsEq, same⟩ := List.map_eq_singleton_iff.mp ended
  obtain ⟨feedEq, operationsEq⟩ := Prod.mk.inj same
  have member : session ∈ streams.sessions := by simp [sessionsEq]
  have written : .write (subscriptionText (ascii "btcusdt@depth@100ms")) ∈
      session.operations := by
    simp [operationsEq, subscribing]
  have unescaped : Unescaped (ascii "BTCUSDT") := List.all_eq_true.mp rfl
  have isUtf8 : IsUtf8 (ascii "BTCUSDT") := SevenBit.isUtf8 (by decide)
  have isText := (subscriptions_decode_iff _ run session member _ written).mpr ⟨isUtf8, unescaped⟩
  rw [feedEq] at isText
  exact ⟨events, streams, _, run, ⟨session, member, written⟩, isText⟩

end Connector

end ExchangeConnectivity
