import ExchangeConnectivity.RestClientAsyncRequests

/-!
# How the connections of the asynchronous REST client are made

Whatever the calls, the responses, the errors and the order of the completions:
a request is only ever written on a connection that was made for it or for an
earlier request, and with https a connection is made only by a handshake that
succeeded, after a connect that succeeded, on a stream whose server name and
expected host had been set.
-/

namespace ExchangeConnectivity

open ActionRuns ByteStrings HttpExchange

namespace RestClientAsync

section Making

variable (config : Config) (past : List (Client × Event))

/-- The resolve for the state succeeded, and where the server is to be
authenticated its name was set in the new stream, with the host that the
certificate has to be for if the peer is verified. -/
def Resolved (st : RequestState) : Prop :=
  ∃ before client serverNameSet hostSet,
    before ++ [(client, .completion st (.resolve false serverNameSet hostSet))] <+: past ∧
      (config.https = true →
        serverNameSet = true ∧ (config.verifyPeer = true → hostSet = true))

/-- The connect of the state succeeded once it was resolved. -/
def Connected (st : RequestState) : Prop :=
  ∃ before client, before ++ [(client, .completion st (.connect false))] <+: past ∧
    Resolved config before st

/-- The last stage of a state's connection succeeded after the others, when so
many connections had been made. -/
def MadeAt (index : Nat) : Prop :=
  ∃ before client st, client.connections.length = index ∧
    if config.https = true then
      before ++ [(client, .completion st (.tlsHandshake false))] <+: past ∧
        Connected config before st
    else
      before ++ [(client, .completion st (.connect false))] <+: past ∧ Resolved config before st

/-- What has been done for a request when an operation of it is started. -/
def Prepared (pending : Pending) : Prop :=
  match pending.operation with
  | .resolve => True
  | .connect => Resolved config past pending.st
  | .tlsHandshake => config.https = true ∧ Connected config past pending.st
  | .write | .read => ∃ index, pending.st.conn = some index

end Making

section Later

variable {config : Config} {past later : List (Client × Event)}

theorem Resolved.mono {st : RequestState} (resolved : Resolved config past st)
    (extension : past <+: later) : Resolved config later st := by
  obtain ⟨before, client, serverNameSet, hostSet, earlier, named⟩ := resolved
  exact ⟨before, client, serverNameSet, hostSet, earlier.trans extension, named⟩

theorem Connected.mono {st : RequestState} (connected : Connected config past st)
    (extension : past <+: later) : Connected config later st := by
  obtain ⟨before, client, earlier, resolved⟩ := connected
  exact ⟨before, client, earlier.trans extension, resolved⟩

theorem MadeAt.mono {index : Nat} (made : MadeAt config past index)
    (extension : past <+: later) : MadeAt config later index := by
  obtain ⟨before, client, st, count, made⟩ := made
  refine ⟨before, client, st, count, ?_⟩
  split at made
  next https =>
    rw [if_pos https]
    exact ⟨made.1.trans extension, made.2⟩
  next http =>
    rw [if_neg http]
    exact ⟨made.1.trans extension, made.2⟩

theorem Prepared.mono {pending : Pending} (prepared : Prepared config past pending)
    (extension : past <+: later) : Prepared config later pending := by
  obtain ⟨operation, st⟩ := pending
  cases operation with
  | resolve => trivial
  | connect => exact Resolved.mono prepared extension
  | tlsHandshake => exact ⟨prepared.1, prepared.2.mono extension⟩
  | write => exact prepared
  | read => exact prepared

end Later

/-- Every operation outstanding has been prepared and every connection made. -/
structure Secured (config : Config) (past : List (Client × Event)) (client : Client) : Prop where
  prepared : ∀ pending ∈ client.outstanding, Prepared config past pending
  made : ∀ index < client.connections.length, MadeAt config past index
  isTls : ∀ connection ∈ client.connections, connection.isTls = config.https

section Clients

variable {beast : Beast} {config : Config} {past later : List (Client × Event)} {client : Client}
  {st : RequestState}

theorem Secured.mono (secured : Secured config past client) (extension : past <+: later) :
    Secured config later client :=
  ⟨fun pending member => (secured.prepared pending member).mono extension,
    fun index inside => (secured.made index inside).mono extension, secured.isTls⟩

theorem Secured.start (secured : Secured config past client) {operation : Operation}
    (prepared : Prepared config past { operation, st }) :
    Secured config past (client.start operation st) := by
  refine ⟨?_, secured.made, secured.isTls⟩
  simp only [Client.start, List.mem_append, List.mem_singleton]
  rintro pending (member | rfl)
  · exact secured.prepared pending member
  · exact prepared

theorem Secured.invoke (secured : Secured config past client) (result : RestResult) :
    Secured config past (client.invoke st result) :=
  ⟨secured.prepared, secured.made, secured.isTls⟩

theorem Secured.modify (secured : Secured config past client) (index : Nat)
    (readBuffer : Bytes) :
    Secured config past
      { client with connections := client.connections.modify index ({ · with readBuffer }) } := by
  refine ⟨secured.prepared, ?_, ?_⟩
  · rw [List.length_modify]
    exact secured.made
  · intro connection member
    obtain ⟨place, found⟩ := List.mem_iff_getElem?.mp member
    rw [List.getElem?_modify, Option.map_eq_map, Option.map_eq_some_iff] at found
    obtain ⟨earlier, earlierFound, rfl⟩ := found
    have sameTls := secured.isTls earlier (List.mem_of_getElem? earlierFound)
    split_ifs
    · exact sameTls
    · exact sameTls

theorem Secured.releaseConnection (secured : Secured config past client) (conn : Option Nat)
    (reusable : Bool) :
    Secured config past (releaseConnection config client conn reusable) := by
  cases conn with
  | none => exact secured
  | some index =>
      rw [RestClientAsync.releaseConnection]
      split
      · exact ⟨secured.prepared, secured.made, secured.isTls⟩
      · obtain ⟨prepared, made, isTls⟩ := secured.modify index []
        exact ⟨prepared, made, isTls⟩

theorem Secured.fillBuffer (secured : Secured config past client) (conn : Option Nat)
    (readBuffer : Bytes) : Secured config past (fillBuffer client conn readBuffer) := by
  cases conn with
  | none => exact secured
  | some index => exact secured.modify index readBuffer

theorem Secured.sendAndReceive (secured : Secured config past client) {index : Nat}
    (connEq : st.conn = some index) : Secured config past (sendAndReceive client st) := by
  refine Secured.start ?_ ⟨index, connEq⟩
  exact ⟨secured.prepared, secured.made, secured.isTls⟩

theorem Secured.startRequest (secured : Secured config past client) (request : Request)
    (redirectCount handler : Nat) :
    Secured config past (startRequest beast config client request redirectCount handler) := by
  rw [RestClientAsync.startRequest]
  split
  next index rest pool =>
    refine Secured.sendAndReceive ?_ rfl
    exact ⟨secured.prepared, secured.made, secured.isTls⟩
  next pool => exact secured.start trivial

theorem Secured.useStream (secured : Secured config past client)
    (made : MadeAt config past client.connections.length) :
    Secured config past (useStream config client st) := by
  rw [RestClientAsync.useStream]
  refine Secured.sendAndReceive ⟨secured.prepared, ?_, ?_⟩ rfl
  · intro index inside
    rw [List.length_append, List.length_singleton] at inside
    rcases Nat.lt_succ_iff_lt_or_eq.mp inside with earlier | rfl
    · exact secured.made index earlier
    · exact made
  · simp only [List.mem_append, List.mem_singleton]
    rintro connection (member | rfl)
    · exact secured.isTls connection member
    · rfl

/-- A failed exchange gives up the connection and answers. -/
theorem Secured.abandon (secured : Secured config past client) (error : RestError) :
    Secured config past
      (Client.invoke (RestClientAsync.releaseConnection config client st.conn false)
        { st with conn := none } (.error error)) :=
  (secured.releaseConnection st.conn false).invoke _

theorem Secured.onResponse (secured : Secured config past client)
    (result : Except ReadError (WireResponse × Bytes)) :
    Secured config past (onResponse beast config client st result) := by
  cases result with
  | error error => exact secured.abandon _
  | ok received =>
      obtain ⟨response, readBuffer⟩ := received
      have released :=
        (secured.fillBuffer st.conn readBuffer).releaseConnection st.conn response.keepAlive
      rw [RestClientAsync.onResponse]
      dsimp only
      split
      · split
        · exact released.invoke _
        · exact released.startRequest _ _ _
      · exact released.invoke _

/-- The callback of a prepared operation leaves what it starts prepared, in a
past that has the end of that operation last. -/
theorem Secured.callback {before : Client} {completion : Completion}
    (secured : Secured config past client)
    (sameConnections : before.connections = client.connections)
    (prepared : Prepared config past { operation := completion.operation, st }) :
    Secured config (past ++ [(before, .completion st completion)])
      (callback beast config client st completion) := by
  have extended : past <+: past ++ [(before, .completion st completion)] :=
    List.prefix_append _ _
  have later := secured.mono extended
  have count : before.connections.length = client.connections.length :=
    congrArg List.length sameConnections
  cases completion with
  | resolve failed serverNameSet hostSet =>
      rw [RestClientAsync.callback, onResolve]
      split
      · exact later.invoke _
      next succeeded =>
        obtain rfl : failed = false := by simpa using succeeded
        have connecting : (config.https = true →
            serverNameSet = true ∧ (config.verifyPeer = true → hostSet = true)) →
            Secured config
              (past ++ [(before, .completion st (.resolve false serverNameSet hostSet))])
              (client.start .connect st) := by
          intro named
          exact later.start ⟨past, before, serverNameSet, hostSet, List.prefix_rfl, named⟩
        rw [doConnect]
        split
        · split
          · exact later.invoke _
          next nameSet =>
            split
            · exact later.invoke _
            next verified =>
              exact connecting fun _ => ⟨by simpa using nameSet, by simpa using verified⟩
        next plain => exact connecting fun https => absurd https plain
  | connect failed =>
      rw [RestClientAsync.callback, onConnect]
      split
      · exact later.invoke _
      next succeeded =>
        obtain rfl : failed = false := by simpa using succeeded
        split
        next https => exact later.start ⟨https, past, before, List.prefix_rfl, prepared⟩
        next plain =>
          refine later.useStream ⟨past, before, st, count, ?_⟩
          rw [if_neg plain]
          exact ⟨List.prefix_rfl, prepared⟩
  | tlsHandshake failed =>
      rw [RestClientAsync.callback, onTlsHandshake]
      split
      · exact later.invoke _
      next succeeded =>
        obtain rfl : failed = false := by simpa using succeeded
        obtain ⟨https, connected⟩ := prepared
        refine later.useStream ⟨past, before, st, count, ?_⟩
        rw [if_pos https]
        exact ⟨List.prefix_rfl, connected⟩
  | write failed =>
      rw [RestClientAsync.callback, onWrite]
      split
      · exact later.abandon .writeFailed
      · exact later.start prepared
  | read result => exact later.onResponse result

end Clients

theorem Secured.step {beast : Beast} {config : Config} {past : List (Client × Event)}
    {client next : Client}
    {event : Event} (secured : Secured config past client)
    (stepped : step beast config client event = some next) :
    Secured config (past ++ [(client, event)]) next := by
  cases event with
  | call request =>
      obtain ⟨_, rfl⟩ := step_call_eq_some_iff.mp stepped
      refine Secured.startRequest ?_ request 0 _
      have later := secured.mono (List.prefix_append past [(client, .call request)])
      exact ⟨later.prepared, later.made, later.isTls⟩
  | completion st completion =>
      obtain ⟨outstanding, rfl⟩ := step_completion_eq_some_iff.mp stepped
      refine Secured.callback ⟨?_, secured.made, secured.isTls⟩ rfl
        (secured.prepared _ outstanding)
      exact fun pending member => secured.prepared pending (List.mem_of_mem_erase member)

theorem run_secured {beast : Beast} {config : Config} {events : List Event} {client : Client}
    (run : runFrom (step beast config) {} events = some client) :
    Secured config (trace (step beast config) {} events) client :=
  invariant_of_trace (Secured config) Secured.step run ⟨nofun, nofun, nofun⟩

/-- Every write and every read outstanding is on a connection of the kind the
client is configured for, which some request has made, with https by a TLS
handshake that succeeded after the connect on a stream whose server name and,
if the peer is verified, expected host had been set. -/
theorem messages_secured {beast : Beast} {config : Config} {events : List Event} {client : Client}
    (run : runFrom (step beast config) {} events = some client) {pending : Pending}
    (outstanding : pending ∈ client.outstanding)
    (exchanges : pending.operation = .write ∨ pending.operation = .read) :
    ∃ index connection, pending.st.conn = some index ∧
      client.connections[index]? = some connection ∧ connection.isTls = config.https ∧
        MadeAt config (trace (step beast config) {} events) index := by
  have secured := run_secured run
  have accounts := run_accounts run
  obtain ⟨index, connEq⟩ : ∃ index, pending.st.conn = some index := by
    have prepared := secured.prepared pending outstanding
    rcases exchanges with isWrite | isRead
    · rwa [Prepared, isWrite] at prepared
    · rwa [Prepared, isRead] at prepared
  have held : index ∈ client.held := List.mem_filterMap.mpr ⟨pending, outstanding, connEq⟩
  have inside : index < client.connections.length := by
    have once := accounts.connection_once index
    have counted := List.count_pos_iff.mpr held
    rw [Client.places, existing] at once
    split at once
    · assumption
    · omega
  exact ⟨index, client.connections[index], connEq, List.getElem?_eq_getElem inside,
    secured.isTls _ (List.getElem_mem inside), secured.made index inside⟩

/-- A second call is written on the connection that the first has made by its
handshake. -/
theorem messages_secured_reused :
    ∃ config events client index connection,
      config.https = true ∧ runFrom (step .simple config) {} events = some client ∧
        client.outstanding.map (fun pending => (pending.st.handler, pending.st.conn)) =
          [(1, some index)] ∧
          client.connections[index]? = some connection ∧ connection.isTls = true ∧
            MadeAt config (trace (step .simple config) {} events) index := by
  let config : Config := { host := [104], https := true }
  let first := newState .simple config (get [47] []) 0 0
  let second := { newState .simple config (get [47] []) 0 1 with conn := some 0 }
  let response : WireResponse :=
    { status := 200, reason := [], body := [], fields := [], keepAlive := true
      delimitedByClose := false }
  let events : List Event :=
    [.call (get [47] []), .completion first (.resolve false true true),
      .completion first (.connect false), .completion first (.tlsHandshake false),
      .completion { first with conn := some 0 } (.write false),
      .completion { first with conn := some 0 } (.read (.ok (response, []))),
      .call (get [47] [])]
  have writing : (runFrom (step .simple config) {} events).map (·.outstanding) =
      some [{ operation := .write, st := second }] := by
    decide +kernel
  obtain ⟨client, run, outstandingEq⟩ := Option.map_eq_some_iff.mp writing
  have outstanding : { operation := .write, st := second } ∈ client.outstanding := by
    rw [outstandingEq]
    exact List.mem_singleton_self _
  obtain ⟨index, connection, connEq, found, isTls, made⟩ :=
    messages_secured run outstanding (.inl rfl)
  refine ⟨config, events, client, index, connection, rfl, run, ?_, found, isTls, made⟩
  rw [outstandingEq]
  exact congrArg (fun conn => [(1, conn)]) connEq

end RestClientAsync

end ExchangeConnectivity
