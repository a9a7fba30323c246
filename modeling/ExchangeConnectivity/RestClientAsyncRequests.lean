import ExchangeConnectivity.RestClientAsync

/-!
# Handlers and connections of the asynchronous REST client

Whatever the calls, the responses, the errors and the order of the completions:
each call's handler is in the hands of exactly one operation until it is
invoked, once, and each connection is in exactly one place, held by a request,
idle in the pool or shut down.
-/

namespace ExchangeConnectivity

open ActionRuns ByteStrings HttpExchange

namespace RestClientAsync

/-- How often the handler of a call has been invoked. -/
def Client.invoked (client : Client) (call : Nat) : Nat :=
  (client.invocations.map Prod.fst).count call

/-- How many operations carry the handler of a call. -/
def Client.carried (client : Client) (call : Nat) : Nat :=
  (client.outstanding.map fun pending => pending.st.handler).count call

/-- The connections held by requests. -/
def Client.held (client : Client) : List Nat :=
  client.outstanding.filterMap fun pending => pending.st.conn

/-- How many places a connection is in. -/
def Client.places (client : Client) (index : Nat) : Nat :=
  client.idlePool.count index + client.held.count index + client.shutDowns.count index

/-- The operations before a request has its connection. -/
def Operation.IsStage : Operation → Prop
  | .resolve | .connect | .tlsHandshake => True
  | .write | .read => False

/-- One for each of the first `total` numbers. -/
def existing (index total : Nat) : Nat :=
  if index < total then 1 else 0

theorem existing_succ (index total : Nat) :
    existing index (total + 1) = existing index total + [total].count index := by
  simp only [existing, List.count_singleton, beq_iff_eq]
  split_ifs <;> omega

/-- The accounts of a client while a callback has these handlers and
connections in its hands. -/
structure Accounts (config : Config) (client : Client) (handlers conns : List Nat) : Prop where
  handler_once : ∀ call,
    handlers.count call + client.invoked call + client.carried call =
      existing call client.calls.length
  connection_once : ∀ index,
    conns.count index + client.places index = existing index client.connections.length
  pool_le : client.idlePool.length ≤ config.maxPoolSize
  pool_empty : config.keepAlive = false → client.idlePool = []
  buffers_empty : ∀ index ∈ client.idlePool,
    ∃ connection, client.connections[index]? = some connection ∧ connection.readBuffer = []
  unconnected : ∀ pending ∈ client.outstanding, pending.operation.IsStage → pending.st.conn = none

section Accounts

variable {beast : Beast} {config : Config} {client : Client} {handlers conns : List Nat}
  {st : RequestState}

theorem Accounts.start (accounts : Accounts config client [st.handler] st.conn.toList)
    (operation : Operation) (unconnected : operation.IsStage → st.conn = none) :
    Accounts config (client.start operation st) [] [] := by
  refine ⟨fun call => ?_, fun index => ?_, accounts.pool_le, accounts.pool_empty,
    accounts.buffers_empty, ?_⟩
  · have before := accounts.handler_once call
    simp only [Client.start, Client.invoked, Client.carried, List.map_append, List.count_append,
      List.map_cons, List.map_nil, List.count_nil] at before ⊢
    omega
  · have before := accounts.connection_once index
    have added : List.filterMap (fun pending : Pending => pending.st.conn)
        [{ operation, st }] = st.conn.toList := by
      cases found : st.conn <;> simp [found]
    simp only [Client.start, Client.places, Client.held, List.filterMap_append,
      List.count_append, List.count_nil, added] at before ⊢
    omega
  · simp only [Client.start, List.mem_append, List.mem_singleton]
    rintro pending (member | rfl)
    · exact accounts.unconnected pending member
    · exact unconnected

theorem Accounts.invoke (accounts : Accounts config client [st.handler] [])
    (result : RestResult) : Accounts config (client.invoke st result) [] [] := by
  refine ⟨fun call => ?_, accounts.connection_once, accounts.pool_le, accounts.pool_empty,
    accounts.buffers_empty, accounts.unconnected⟩
  have before := accounts.handler_once call
  simp only [Client.invoke, Client.invoked, Client.carried, List.map_append, List.count_append,
    List.map_cons, List.map_nil, List.count_nil] at before ⊢
  omega

/-- A connection in the hands of a callback exists and is not in the pool. -/
theorem Accounts.in_hand {index : Nat} (accounts : Accounts config client handlers [index]) :
    index < client.connections.length ∧ index ∉ client.idlePool := by
  have once := accounts.connection_once index
  simp only [List.count_cons, List.count_nil, beq_self_eq_true, if_true, Client.places,
    existing] at once
  constructor
  · by_contra outside
    rw [if_neg outside] at once
    omega
  · intro idle
    have counted := List.count_pos_iff.mpr idle
    split at once <;> omega

theorem Accounts.releaseConnection {conn : Option Nat}
    (accounts : Accounts config client handlers conn.toList) (reusable : Bool) :
    Accounts config (releaseConnection config client conn reusable) handlers [] := by
  cases conn with
  | none => exact accounts
  | some index =>
      rw [RestClientAsync.releaseConnection]
      split
      · refine ⟨accounts.handler_once, fun other => ?_, accounts.pool_le, accounts.pool_empty,
          accounts.buffers_empty, accounts.unconnected⟩
        have before := accounts.connection_once other
        simp only [Client.places, Client.held, List.count_append, List.count_nil,
          Option.toList_some] at before ⊢
        omega
      next kept =>
        simp only [not_or, not_not, Nat.not_le, ge_iff_le] at kept
        refine ⟨accounts.handler_once, fun other => ?_, ?_, ?_, ?_, accounts.unconnected⟩
        · have before := accounts.connection_once other
          simp only [Client.places, Client.held, List.count_append, List.count_nil,
            Option.toList_some, List.length_modify] at before ⊢
          omega
        · rw [List.length_append]
          exact kept.2.2
        · intro closes
          exact absurd kept.2.1 (by simp [closes])
        · intro other member
          obtain ⟨inside, _⟩ := accounts.in_hand
          by_cases same : index = other
          · subst same
            exact ⟨_, by rw [List.getElem?_modify_eq, List.getElem?_eq_getElem inside]; rfl, rfl⟩
          · have idle : other ∈ client.idlePool := by simpa [Ne.symm same] using member
            obtain ⟨connection, found, empty⟩ := accounts.buffers_empty other idle
            exact ⟨connection, by rw [List.getElem?_modify_ne _ _ same, found], empty⟩

theorem Accounts.sendAndReceive (accounts : Accounts config client [st.handler] st.conn.toList) :
    Accounts config (sendAndReceive client st) [] [] := by
  refine Accounts.start ?_ .write False.elim
  exact ⟨accounts.handler_once, accounts.connection_once, accounts.pool_le, accounts.pool_empty,
    accounts.buffers_empty, accounts.unconnected⟩

theorem Accounts.startRequest {handler : Nat} (accounts : Accounts config client [handler] [])
    (request : Request) (redirectCount : Nat) :
    Accounts config (startRequest beast config client request redirectCount handler) [] [] := by
  rw [RestClientAsync.startRequest]
  split
  next index rest pool =>
    refine Accounts.sendAndReceive ⟨accounts.handler_once, fun other => ?_, ?_, ?_, ?_,
      accounts.unconnected⟩
    · have before := accounts.connection_once other
      simp only [Client.places, Client.held, pool, List.count_cons, List.count_nil,
        Option.toList_some] at before ⊢
      omega
    · have before := accounts.pool_le
      rw [pool, List.length_cons] at before
      exact Nat.le_of_succ_le before
    · intro closes
      have before := accounts.pool_empty closes
      rw [pool] at before
      cases before
    · intro other member
      exact accounts.buffers_empty other (by rw [pool]; exact .tail _ member)
  next pool =>
    refine Accounts.start ?_ .resolve fun _ => rfl
    exact accounts

theorem Accounts.useStream (accounts : Accounts config client [st.handler] []) :
    Accounts config (useStream config client st) [] [] := by
  rw [RestClientAsync.useStream]
  refine Accounts.sendAndReceive ⟨accounts.handler_once, fun index => ?_, accounts.pool_le,
    accounts.pool_empty, ?_, accounts.unconnected⟩
  · have before := accounts.connection_once index
    simp only [Client.places, Client.held, List.count_nil, Option.toList_some,
      List.length_append, List.length_singleton, existing_succ] at before ⊢
    omega
  · intro index idle
    obtain ⟨connection, found, empty⟩ := accounts.buffers_empty index idle
    refine ⟨connection, ?_, empty⟩
    rw [List.getElem?_append_left (List.getElem?_eq_some_iff.mp found).1, found]

/-- A failed exchange gives up the connection and answers. -/
theorem Accounts.abandon (accounts : Accounts config client [st.handler] st.conn.toList)
    (error : RestError) :
    Accounts config
      (Client.invoke (RestClientAsync.releaseConnection config client st.conn false)
        { st with conn := none } (.error error)) [] [] := by
  refine Accounts.invoke ?_ (.error error)
  exact accounts.releaseConnection false

theorem Accounts.onResolve (accounts : Accounts config client [st.handler] st.conn.toList)
    (unconnected : st.conn = none) (failed serverNameSet hostSet : Bool) :
    Accounts config (onResolve config client st failed serverNameSet hostSet) [] [] := by
  have answered : ∀ result, Accounts config (client.invoke st result) [] [] := by
    rw [unconnected] at accounts
    exact accounts.invoke
  have connecting := accounts.start .connect fun _ => unconnected
  rw [RestClientAsync.onResolve, doConnect]
  split
  · exact answered _
  · split
    · split
      · exact answered _
      · split
        · exact answered _
        · exact connecting
    · exact connecting

theorem Accounts.onConnect (accounts : Accounts config client [st.handler] st.conn.toList)
    (unconnected : st.conn = none) (failed : Bool) :
    Accounts config (onConnect config client st failed) [] [] := by
  have shaking := accounts.start .tlsHandshake fun _ => unconnected
  rw [unconnected] at accounts
  rw [RestClientAsync.onConnect]
  split
  · exact accounts.invoke _
  · split
    · exact shaking
    · exact accounts.useStream

theorem Accounts.onTlsHandshake (accounts : Accounts config client [st.handler] st.conn.toList)
    (unconnected : st.conn = none) (failed : Bool) :
    Accounts config (onTlsHandshake config client st failed) [] [] := by
  rw [unconnected] at accounts
  rw [RestClientAsync.onTlsHandshake]
  split
  · exact accounts.invoke _
  · exact accounts.useStream

theorem Accounts.onWrite (accounts : Accounts config client [st.handler] st.conn.toList)
    (failed : Bool) : Accounts config (onWrite config client st failed) [] [] := by
  rw [RestClientAsync.onWrite]
  split
  · exact accounts.abandon .writeFailed
  · exact accounts.start .read False.elim

theorem Accounts.fillBuffer {conn : Option Nat}
    (accounts : Accounts config client handlers conn.toList) (readBuffer : Bytes) :
    Accounts config (fillBuffer client conn readBuffer) handlers conn.toList := by
  cases conn with
  | none => exact accounts
  | some index =>
      refine ⟨accounts.handler_once, ?_, accounts.pool_le, accounts.pool_empty, ?_,
        accounts.unconnected⟩
      · simp only [RestClientAsync.fillBuffer, List.length_modify]
        exact accounts.connection_once
      · intro other idle
        obtain ⟨_, notIdle⟩ := accounts.in_hand
        have different : index ≠ other := fun same => notIdle (same ▸ idle)
        obtain ⟨connection, found, empty⟩ := accounts.buffers_empty other idle
        refine ⟨connection, ?_, empty⟩
        rw [RestClientAsync.fillBuffer, List.getElem?_modify_ne _ _ different, found]

theorem Accounts.onResponse (accounts : Accounts config client [st.handler] st.conn.toList)
    (result : Except ReadError (WireResponse × Bytes)) :
    Accounts config (onResponse beast config client st result) [] [] := by
  cases result with
  | error error => exact accounts.abandon _
  | ok received =>
      obtain ⟨response, readBuffer⟩ := received
      have released := (accounts.fillBuffer readBuffer).releaseConnection response.keepAlive
      rw [RestClientAsync.onResponse]
      dsimp only
      split
      · split
        · refine Accounts.invoke ?_ _
          exact released
        · exact released.startRequest _ _
      · refine Accounts.invoke ?_ _
        exact released

theorem Accounts.callback (accounts : Accounts config client [st.handler] st.conn.toList)
    (completion : Completion) (unconnected : completion.operation.IsStage → st.conn = none) :
    Accounts config (callback beast config client st completion) [] [] := by
  cases completion with
  | resolve failed serverNameSet hostSet =>
      exact accounts.onResolve (unconnected trivial) failed serverNameSet hostSet
  | connect failed => exact accounts.onConnect (unconnected trivial) failed
  | tlsHandshake failed => exact accounts.onTlsHandshake (unconnected trivial) failed
  | write failed => exact accounts.onWrite failed
  | read result => exact accounts.onResponse result

end Accounts

/-- The callback of an operation takes over what the operation carried. -/
theorem Accounts.finish {config : Config} {client : Client}
    (accounts : Accounts config client [] []) {pending : Pending}
    (outstanding : pending ∈ client.outstanding) :
    Accounts config { client with outstanding := client.outstanding.erase pending }
      [pending.st.handler] pending.st.conn.toList := by
  have split := List.perm_cons_erase outstanding
  refine ⟨fun call => ?_, fun index => ?_, accounts.pool_le, accounts.pool_empty,
    accounts.buffers_empty, ?_⟩
  · have before := accounts.handler_once call
    have counted := (split.map fun pending => pending.st.handler).count_eq call
    simp only [Client.invoked, Client.carried, List.map_cons, List.count_cons,
      List.count_nil] at before counted ⊢
    omega
  · have before := accounts.connection_once index
    have counted := (split.filterMap fun pending => pending.st.conn).count_eq index
    have front : List.filterMap (fun pending : Pending => pending.st.conn)
        (pending :: client.outstanding.erase pending) =
          pending.st.conn.toList ++
            (client.outstanding.erase pending).filterMap fun pending => pending.st.conn := by
      cases found : pending.st.conn <;> simp [found]
    rw [front, List.count_append] at counted
    simp only [Client.places, Client.held, List.count_nil] at before ⊢
    omega
  · exact fun other member => accounts.unconnected other (List.mem_of_mem_erase member)

theorem Accounts.step {beast : Beast} {config : Config} {client next : Client} {event : Event}
    (accounts : Accounts config client [] [])
    (stepped : step beast config client event = some next) :
    Accounts config next [] [] := by
  cases event with
  | call request =>
      obtain ⟨_, rfl⟩ := step_call_eq_some_iff.mp stepped
      refine Accounts.startRequest ?_ request 0
      refine ⟨fun call => ?_, accounts.connection_once, accounts.pool_le, accounts.pool_empty,
        accounts.buffers_empty, accounts.unconnected⟩
      have before := accounts.handler_once call
      simp only [Client.invoked, Client.carried, List.count_nil, List.length_append,
        List.length_singleton, existing_succ] at before ⊢
      omega
  | completion st completion =>
      obtain ⟨outstanding, rfl⟩ := step_completion_eq_some_iff.mp stepped
      exact (accounts.finish outstanding).callback completion
        (accounts.unconnected _ outstanding)

theorem accounts_initially (config : Config) : Accounts config {} [] [] :=
  ⟨fun _ => rfl, fun _ => rfl, Nat.zero_le _, fun _ => rfl, nofun, nofun⟩

theorem run_accounts {beast : Beast} {config : Config} {events : List Event} {client : Client}
    (run : runFrom (step beast config) {} events = some client) : Accounts config client [] [] :=
  invariant_of_run Accounts.step run (accounts_initially config)

theorem results_length (client : Client) (call : Nat) :
    ((client.invocations.filter fun entry => entry.1 = call).map Prod.snd).length =
      client.invoked call := by
  rw [List.length_map, Client.invoked, List.count, List.countP_map, List.countP_eq_length_filter]
  rfl

/-- A promise that is set by a handler holds the result of its one invocation. -/
theorem promise_of_invoked {made : FutureCall} (sets : made.handler = setValue) {client : Client}
    {call : Nat} :
    (client.invoked call = 0 → made.promise client call = .ok none) ∧
      (client.invoked call = 1 → ∃ result, made.promise client call = .ok (some result) ∧
        (call, result) ∈ client.invocations) := by
  rw [← results_length, FutureCall.promise, sets]
  constructor
  · intro never
    rw [List.eq_nil_of_length_eq_zero never]
    rfl
  · intro once
    obtain ⟨result, resultsEq⟩ := List.length_eq_one_iff.mp once
    refine ⟨result, by rw [resultsEq]; rfl, ?_⟩
    obtain ⟨entry, member, rfl⟩ := List.mem_map.mp (resultsEq ▸ List.mem_singleton_self result)
    obtain ⟨invoked, ofCall⟩ := List.mem_filter.mp member
    rw [← of_decide_eq_true ofCall]
    exact invoked

/-- The handler of each call is never invoked twice, and has been invoked once
when no operation is outstanding; so the promise of a future-style call is never
set twice, and has been set by then. -/
theorem handler_invoked_once {beast : Beast} {config : Config} {events : List Event}
    {client : Client}
    (run : runFrom (step beast config) {} events = some client) :
    (∀ call, client.invoked call ≤ 1) ∧
      (client.outstanding = [] → ∀ call < client.calls.length, client.invoked call = 1) ∧
      ∀ target body contentType headers, ∀ made ∈ [getAsync target headers,
          postAsync target body contentType headers, putAsync target body contentType headers,
          delAsync target headers],
        ∀ call, client.calls[call]? = some made.request →
          (∃ value, made.promise client call = .ok value) ∧
            (client.outstanding = [] → ∃ result, made.promise client call = .ok (some result) ∧
              (call, result) ∈ client.invocations) := by
  have accounts := run_accounts run
  have never_twice : ∀ call, client.invoked call ≤ 1 := by
    intro call
    have once := accounts.handler_once call
    rw [existing] at once
    split at once <;> omega
  have once_by_then : client.outstanding = [] →
      ∀ call < client.calls.length, client.invoked call = 1 := by
    intro quiescent call isCall
    have once := accounts.handler_once call
    rw [Client.carried, quiescent, List.map_nil, existing, if_pos isCall] at once
    simpa using once
  refine ⟨never_twice, once_by_then, ?_⟩
  intro target body contentType headers made isFuture call isCall
  have sets : made.handler = setValue := by
    simp only [List.mem_cons, List.not_mem_nil, or_false] at isFuture
    rcases isFuture with rfl | rfl | rfl | rfl <;> rfl
  obtain ⟨unset, set⟩ := @promise_of_invoked made sets client call
  refine ⟨?_, fun quiescent => ?_⟩
  · rcases Nat.le_one_iff_eq_zero_or_eq_one.mp (never_twice call) with never | once
    · exact ⟨none, unset never⟩
    · obtain ⟨result, isSet, _⟩ := set once
      exact ⟨some result, isSet⟩
  · exact set (once_by_then quiescent call (List.getElem?_eq_some_iff.mp isCall).1)

/-- A request redirected once, on one connection; its handler is invoked once,
and sets the promise. -/
theorem redirected_handler_invoked_once :
    ∃ events client result,
      runFrom (step .simple { host := [104], https := false }) {} events = some client ∧
        client.sent = [(0, get [47] []), (0, get [47, 97] [])] ∧ client.invoked 0 = 1 ∧
          (getAsync [47] []).promise client 0 = .ok (some result) := by
  let config : Config := { host := [104], https := false }
  let first := newState .simple config (get [47] []) 0 0
  let second := { newState .simple config (get [47, 97] []) 1 0 with conn := some 0 }
  let redirect : WireResponse :=
    { status := 302, reason := [], body := [], fields := [(ascii "Location", [97])]
      keepAlive := true, delimitedByClose := false }
  let events : List Event :=
    [.call (get [47] []), .completion first (.resolve false true true),
      .completion first (.connect false),
      .completion { first with conn := some 0 } (.write false),
      .completion { first with conn := some 0 } (.read (.ok (redirect, []))),
      .completion second (.write false),
      .completion second (.read (.ok ({ redirect with status := 200 }, [])))]
  have completes : (runFrom (step .simple config) {} events).map
      (fun client => (client.outstanding, client.sent, client.calls)) =
        some ([], [(0, get [47] []), (0, get [47, 97] [])], [get [47] []]) := by
    decide +kernel
  obtain ⟨client, run, ended⟩ := Option.map_eq_some_iff.mp completes
  obtain ⟨quiescent, sentEq, callsEq⟩ : client.outstanding = [] ∧ _ ∧ _ := by
    simpa using ended
  obtain ⟨-, invoked, futures⟩ := handler_invoked_once run
  obtain ⟨result, isSet, -⟩ := (futures [47] [] [] [] (getAsync [47] []) List.mem_cons_self 0
    (by rw [callsEq]; rfl)).2 quiescent
  exact ⟨events, client, result, run, sentEq, invoked quiescent 0 (by rw [callsEq]; simp), isSet⟩

/-- No connection is held twice or idle while it is held; the pool keeps to its
bound, to `keepAlive` and to empty buffers; and when no operation is outstanding
every connection is idle or shut down. -/
theorem connections_accounted {beast : Beast} {config : Config} {events : List Event}
    {client : Client}
    (run : runFrom (step beast config) {} events = some client) :
    (client.idlePool ++ client.held).Nodup ∧ client.idlePool.length ≤ config.maxPoolSize ∧
      (config.keepAlive = false → client.idlePool = []) ∧
      (∀ index ∈ client.idlePool,
        ∃ connection, client.connections[index]? = some connection ∧
          connection.readBuffer = []) ∧
      (client.outstanding = [] → ∀ index < client.connections.length,
        index ∈ client.idlePool ∨ index ∈ client.shutDowns) := by
  have accounts := run_accounts run
  refine ⟨?_, accounts.pool_le, accounts.pool_empty, accounts.buffers_empty, ?_⟩
  · rw [List.nodup_iff_count]
    intro index
    have once := accounts.connection_once index
    rw [Client.places, existing] at once
    rw [List.count_append]
    split at once <;> omega
  · intro quiescent index exists_
    have once := accounts.connection_once index
    rw [Client.places, Client.held, quiescent, existing, if_pos exists_] at once
    rw [← List.count_pos_iff, ← List.count_pos_iff]
    simp only [List.filterMap_nil, List.count_nil] at once
    omega

/-- Of two requests answered at once, the pool keeps one connection. -/
theorem full_pool_accounted :
    ∃ events client,
      runFrom (step .simple { host := [104], https := false, maxPoolSize := 1 }) {} events =
          some client ∧
        client.shutDowns = [1] ∧ client.idlePool.length ≤ 1 := by
  let config : Config := { host := [104], https := false, maxPoolSize := 1 }
  let first := newState .simple config (get [47] []) 0 0
  let second := newState .simple config (get [47] []) 0 1
  let response : WireResponse :=
    { status := 200, reason := [], body := [], fields := [], keepAlive := true
      delimitedByClose := false }
  let events : List Event :=
    [.call (get [47] []), .call (get [47] []), .completion first (.resolve false true true),
      .completion second (.resolve false true true), .completion first (.connect false),
      .completion second (.connect false),
      .completion { first with conn := some 0 } (.write false),
      .completion { second with conn := some 1 } (.write false),
      .completion { first with conn := some 0 } (.read (.ok (response, [1]))),
      .completion { second with conn := some 1 } (.read (.ok (response, [])))]
  have completes :
      (runFrom (step .simple config) {} events).map (fun client => client.shutDowns) =
        some [1] := by
    decide +kernel
  obtain ⟨client, run, shutDown⟩ := Option.map_eq_some_iff.mp completes
  exact ⟨events, client, run, shutDown, (connections_accounted run).2.1⟩

/-- No connection is shut down twice, by the engine or by the destructor, or
while a request holds it; when no operation is outstanding the destructor leaves
every connection shut down. -/
theorem connections_shut_down_once {beast : Beast} {config : Config} {events : List Event}
    {client : Client}
    (run : runFrom (step beast config) {} events = some client) :
    ((destroy client).shutDowns ++ client.held).Nodup ∧
      (client.outstanding = [] →
        (destroy client).shutDowns.Perm (List.range client.connections.length)) := by
  have accounts := run_accounts run
  have once : ∀ index, (destroy client).shutDowns.count index + client.held.count index =
      existing index client.connections.length := by
    intro index
    have accounted := accounts.connection_once index
    rw [List.count_nil, Client.places] at accounted
    rw [destroy, List.count_append]
    omega
  constructor
  · rw [List.nodup_iff_count]
    intro index
    have accounted := once index
    rw [existing] at accounted
    rw [List.count_append]
    split at accounted <;> omega
  · intro quiescent
    rw [List.perm_iff_count]
    intro index
    have accounted := once index
    rw [Client.held, quiescent, List.filterMap_nil, List.count_nil, Nat.add_zero] at accounted
    rw [accounted, existing, List.count_range]

/-- The connection of an answered request stays idle until the destructor shuts
it down. -/
theorem idle_connection_shut_down_once :
    ∃ config events client,
      runFrom (step .simple config) {} events = some client ∧ client.shutDowns = [] ∧
        (destroy client).shutDowns.Perm [0] := by
  let config : Config := { host := [104], https := false }
  let made := newState .simple config (get [47] []) 0 0
  let response : WireResponse :=
    { status := 200, reason := [], body := [], fields := [], keepAlive := true
      delimitedByClose := false }
  let events : List Event :=
    [.call (get [47] []), .completion made (.resolve false true true),
      .completion made (.connect false), .completion { made with conn := some 0 } (.write false),
      .completion { made with conn := some 0 } (.read (.ok (response, [])))]
  have completes : (runFrom (step .simple config) {} events).map
      (fun client => (client.outstanding, client.shutDowns, client.connections.length)) =
        some ([], [], 1) := by
    decide +kernel
  obtain ⟨client, run, ended⟩ := Option.map_eq_some_iff.mp completes
  obtain ⟨quiescent, noneYet, oneMade⟩ :
      client.outstanding = [] ∧ client.shutDowns = [] ∧ client.connections.length = 1 := by
    simpa using ended
  have shutDown := (connections_shut_down_once run).2 quiescent
  rw [oneMade] at shutDown
  exact ⟨config, events, client, run, noneYet, shutDown⟩

end RestClientAsync

end ExchangeConnectivity
