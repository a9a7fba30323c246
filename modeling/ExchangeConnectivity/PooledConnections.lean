import ExchangeConnectivity.AnsweredRequests
import ExchangeConnectivity.RestClientAsyncRequests

/-!
# Requests on pooled connections

The asynchronous client takes an idle connection without asking whether the
peer still holds it, and does not repeat a request that fails on it.  Against a
peer that answers whatever is sent on an open connection, a call whose messages
all find their connections open ends as it does with an empty pool.
-/

namespace ExchangeConnectivity

open ActionRuns ByteStrings HttpExchange

namespace RestClientAsync

namespace Peer

/-- The client with the connections the peer has closed: while they were idle,
or to delimit a response. -/
structure World where
  client : Client := {}
  closedIdle : List Nat := []
  closedByResponse : List Nat := []

def World.closed (world : World) : Option Nat → Bool
  | none => false
  | some index => index ∈ world.closedIdle ∨ index ∈ world.closedByResponse

/-- A call, the peer closing an idle connection, or the progress of an
outstanding operation; a write on a closed connection may fail at once or leave
the failure to the read. -/
inductive Event
  | call (request : Request)
  | close (index : Nat)
  | advance (pending : Pending) (writeFails : Bool)

section Peers

/-! `answer` is the peer's answer to each message of each call. -/

variable (answer : Nat → Nat → Request → WireResponse)

/-- How the operation ends: the peer accepts every connection and answers on
those it holds open. -/
def World.completion (world : World) (pending : Pending) (writeFails : Bool) : Completion :=
  match pending.operation with
  | .resolve => .resolve false true true
  | .connect => .connect false
  | .tlsHandshake => .tlsHandshake false
  | .write => .write (world.closed pending.st.conn && writeFails)
  | .read =>
      if world.closed pending.st.conn then .read (.error .other)
      else
        .read (.ok (answer pending.st.handler pending.st.redirectCount pending.st.request, []))

/-- The connection the peer closes to delimit its response. -/
def World.delimited (world : World) (pending : Pending) : List Nat :=
  if pending.operation = .read ∧ ¬ world.closed pending.st.conn ∧
      (answer pending.st.handler pending.st.redirectCount
        pending.st.request).delimitedByClose then
    pending.st.conn.toList
  else []

def step (beast : Beast) (config : Config) (world : World) : Event → Option World
  | .call request =>
      (RestClientAsync.step beast config world.client (.call request)).map fun client =>
        { world with client }
  | .close index =>
      if index ∈ world.client.idlePool then
        some { world with closedIdle := world.closedIdle ++ [index] }
      else none
  | .advance pending writeFails =>
      (RestClientAsync.step beast config world.client
        (.completion pending.st (world.completion answer pending writeFails))).map fun client =>
          { world with
            client
            closedByResponse := world.closedByResponse ++ world.delimited answer pending }

end Peers

/-- A message of the call has met a connection that the peer had closed. -/
def OnClosed (past : List (World × Event)) (call : Nat) : Prop :=
  ∃ taken ∈ past, ∃ pending writeFails, taken.2 = .advance pending writeFails ∧
    pending.st.handler = call ∧ taken.1.closed pending.st.conn = true

/-- A message of the call has met a connection that the peer had closed while
it was idle. -/
def OnClosedIdle (past : List (World × Event)) (call : Nat) : Prop :=
  ∃ taken ∈ past, ∃ pending writeFails, taken.2 = .advance pending writeFails ∧
    pending.st.handler = call ∧ ∃ index ∈ taken.1.closedIdle, pending.st.conn = some index

theorem OnClosedIdle.onClosed {past : List (World × Event)} {call : Nat}
    (onClosedIdle : OnClosedIdle past call) : OnClosed past call := by
  obtain ⟨taken, member, pending, writeFails, eventEq, own, index, closed, connEq⟩ :=
    onClosedIdle
  exact ⟨taken, member, pending, writeFails, eventEq, own, by simp [connEq, World.closed, closed]⟩

theorem onClosed_append_iff (past : List (World × Event)) (world : World) (event : Event)
    (call : Nat) :
    OnClosed (past ++ [(world, event)]) call ↔
      OnClosed past call ∨ ∃ pending writeFails, event = .advance pending writeFails ∧
        pending.st.handler = call ∧ world.closed pending.st.conn = true := by
  simp [OnClosed, or_and_right, exists_or]

/-- The call reads from a closed connection, or has failed. -/
inductive Failing (world : World) (view : View) : Prop
  | reading (st : RequestState) (pendingsEq : view.pendings = [{ operation := .read, st }])
      (resultsEq : view.results = []) (closedEq : world.closed st.conn = true)
  | failed (error : RestError) (pendingsEq : view.pendings = [])
      (resultsEq : view.results = [.error error])
      (isFailure : error = .writeFailed ∨ error = .readFailed)

theorem Failing.mono {world later : World} {view : View} (failing : Failing world view)
    (closes : ∀ conn, world.closed conn = true → later.closed conn = true) :
    Failing later view := by
  cases failing with
  | reading st pendingsEq resultsEq closedEq =>
      exact .reading st pendingsEq resultsEq (closes _ closedEq)
  | failed error pendingsEq resultsEq isFailure =>
      exact .failed error pendingsEq resultsEq isFailure

/-- A message on a closed connection fails, at the latest when the response is
read. -/
theorem failing_callback {answer : Nat → Nat → Request → WireResponse} {beast : Beast}
    {config : Config}
    {world later : World} {client : Client} {pending : Pending} (writeFails : Bool)
    (closedEq : world.closed pending.st.conn = true)
    (closes : ∀ conn, world.closed conn = true → later.closed conn = true)
    (transfers : ¬ pending.operation.IsStage)
    (pendingsEq : (client.view pending.st.handler).pendings = [])
    (resultsEq : (client.view pending.st.handler).results = []) :
    Failing later
      ((callback beast config client pending.st (world.completion answer pending writeFails)).view
        pending.st.handler) := by
  obtain ⟨operation, st⟩ := pending
  have abandoned : ∀ error : RestError, error = .writeFailed ∨ error = .readFailed →
      Failing later
        ((Client.invoke (releaseConnection config client st.conn false) { st with conn := none }
          (.error error)).view st.handler) := by
    intro error isFailure
    have invoked := invoke_view (releaseConnection config client st.conn false)
      { st with conn := none } (.error error)
    dsimp only at invoked
    rw [releaseConnection_view] at invoked
    rw [invoked]
    exact .failed error pendingsEq (by rw [resultsEq, List.nil_append]) isFailure
  cases operation with
  | resolve | connect | tlsHandshake => exact absurd trivial transfers
  | write =>
      dsimp only [World.completion] at closedEq ⊢
      rw [closedEq, Bool.true_and, callback, onWrite]
      split
      · exact abandoned _ (.inl rfl)
      · refine .reading st ?_ ?_ (closes _ closedEq)
        · rw [start_view, pendingsEq, List.nil_append]
        · rw [start_view, resultsEq]
  | read =>
      dsimp only [World.completion] at closedEq ⊢
      rw [if_pos closedEq]
      exact abandoned _ (.inr rfl)

section Steps

variable {answer : Nat → Nat → Request → WireResponse} {beast : Beast} {config : Config}
  {world next : World}

theorem completion_operation (pending : Pending) (writeFails : Bool) :
    (world.completion answer pending writeFails).operation = pending.operation := by
  obtain ⟨operation, st⟩ := pending
  cases operation with
  | read =>
      dsimp only [World.completion]
      split <;> rfl
  | resolve | connect | tlsHandshake | write => rfl

theorem completion_answers (pending : Pending) (writeFails : Bool)
    (openEq : world.closed pending.st.conn = false) :
    Answers (answer pending.st.handler) pending.st
      (world.completion answer pending writeFails) := by
  obtain ⟨operation, st⟩ := pending
  dsimp only at openEq
  cases operation <;> simp [World.completion, Answers, openEq]

theorem step_call_eq_some_iff {request : Request} :
    step answer beast config world (.call request) = some next ↔
      ∃ client, RestClientAsync.step beast config world.client (.call request) = some client ∧
        { world with client } = next := by
  rw [step, Option.map_eq_some_iff]

theorem step_advance_eq_some_iff {pending : Pending} {writeFails : Bool} :
    step answer beast config world (.advance pending writeFails) = some next ↔
      ∃ client,
        RestClientAsync.step beast config world.client
          (.completion pending.st (world.completion answer pending writeFails)) =
            some client ∧
        { world with
          client
          closedByResponse := world.closedByResponse ++ world.delimited answer pending } =
            next := by
  rw [step, Option.map_eq_some_iff]

/-- What the peer has closed stays closed. -/
theorem step_closes {event : Event} (stepped : step answer beast config world event = some next)
    (conn : Option Nat) (closedEq : world.closed conn = true) : next.closed conn = true := by
  cases conn with
  | none => simp [World.closed] at closedEq
  | some index =>
      simp only [World.closed, decide_eq_true_eq] at closedEq ⊢
      cases event with
      | call request =>
          obtain ⟨client, _, rfl⟩ := step_call_eq_some_iff.mp stepped
          exact closedEq
      | close other =>
          rw [step, Option.ite_none_right_eq_some, Option.some_inj] at stepped
          obtain ⟨_, rfl⟩ := stepped
          exact closedEq.imp_left (List.mem_append_left _)
      | advance pending writeFails =>
          obtain ⟨client, _, rfl⟩ := step_advance_eq_some_iff.mp stepped
          exact closedEq.imp_right (List.mem_append_left _)

end Steps

/-- After the steps of the past, each call whose messages have all met open
connections is on course, and each other call fails. -/
structure Coursed (answer : Nat → Nat → Request → WireResponse) (config : Config)
    (past : List (World × Event)) (world : World) : Prop where
  accounts : Accounts config world.client [] []
  fresh : world.client.Fresh
  onCourse : ∀ call request, world.client.calls[call]? = some request → ¬ OnClosed past call →
    OnCourse config (answer call) request (world.client.view call)
  failing : ∀ call, OnClosed past call → Failing world (world.client.view call)

section Coursed

variable {answer : Nat → Nat → Request → WireResponse} {beast : Beast} {config : Config}
  {past : List (World × Event)} {world next : World}

/-- A call not made yet has met no connection. -/
theorem Coursed.call_lt (coursed : Coursed answer config past world) {call : Nat}
    (onClosed : OnClosed past call) : call < world.client.calls.length := by
  by_contra later
  have empty := coursed.fresh call (Nat.le_of_not_lt later)
  cases coursed.failing call onClosed with
  | reading st pendingsEq => simp [empty] at pendingsEq
  | failed error _ resultsEq => simp [empty] at resultsEq

theorem Coursed.call (coursed : Coursed answer config past world) {request : Request}
    (stepped : step answer beast config world (.call request) = some next) :
    Coursed answer config (past ++ [(world, .call request)]) next := by
  have closes := step_closes stepped
  obtain ⟨client, called, rfl⟩ := step_call_eq_some_iff.mp stepped
  have accounts := coursed.accounts.step called
  have fresh := coursed.fresh.step called
  obtain ⟨_, rfl⟩ := RestClientAsync.step_call_eq_some_iff.mp called
  have onClosedIff : ∀ call,
      OnClosed (past ++ [(world, .call request)]) call ↔ OnClosed past call := by
    simp [onClosed_append_iff]
  refine ⟨accounts, fresh, fun call made isCall notClosed => ?_, fun call onClosed => ?_⟩
  · rw [onClosedIff] at notClosed
    dsimp only at isCall ⊢
    rcases onCall_cases isCall with ⟨madeBefore, viewEq⟩ | ⟨rfl, rfl⟩
    · rw [viewEq]
      exact coursed.onCourse call made madeBefore notClosed
    · exact coursed.fresh.onCourse_onCall beast config _ made
  · rw [onClosedIff] at onClosed
    dsimp only
    rw [onCall, startRequest_view_other _ _ (Nat.ne_of_gt (coursed.call_lt onClosed))]
    exact (coursed.failing call onClosed).mono closes

theorem Coursed.close (coursed : Coursed answer config past world) {index : Nat}
    (stepped : step answer beast config world (.close index) = some next) :
    Coursed answer config (past ++ [(world, .close index)]) next := by
  have closes := step_closes stepped
  rw [step, Option.ite_none_right_eq_some, Option.some_inj] at stepped
  obtain ⟨_, rfl⟩ := stepped
  have onClosedIff : ∀ call,
      OnClosed (past ++ [(world, .close index)]) call ↔ OnClosed past call := by
    simp [onClosed_append_iff]
  refine ⟨coursed.accounts, coursed.fresh, fun call request isCall notClosed => ?_,
    fun call onClosed => ?_⟩
  · rw [onClosedIff] at notClosed
    exact coursed.onCourse call request isCall notClosed
  · rw [onClosedIff] at onClosed
    exact (coursed.failing call onClosed).mono closes

/-- What a call that has an operation outstanding has done so far: it carries
that operation, and its handler has not been invoked. -/
theorem Coursed.carried (coursed : Coursed answer config past world) {pending : Pending}
    (outstanding : pending ∈ world.client.outstanding) :
    (world.client.view pending.st.handler).pendings = [pending] ∧
      (world.client.view pending.st.handler).results = [] := by
  have member : pending ∈ (world.client.view pending.st.handler).pendings := by
    simpa [Client.view] using outstanding
  have inside := coursed.fresh.handler_lt outstanding
  by_cases onClosed : OnClosed past pending.st.handler
  · cases coursed.failing _ onClosed with
    | reading st pendingsEq resultsEq =>
        rw [pendingsEq, List.mem_singleton] at member
        exact ⟨by rw [pendingsEq, ← member], resultsEq⟩
    | failed error pendingsEq => simp [pendingsEq] at member
  · cases coursed.onCourse _ _ (List.getElem?_eq_getElem inside) onClosed with
    | carried before operation st pendingsEq resultsEq =>
        rw [pendingsEq, List.mem_singleton] at member
        exact ⟨by rw [pendingsEq, ← member], resultsEq⟩
    | answered pendingsEq => simp [pendingsEq] at member

/-- A connection found closed once stays so for the message that found it. -/
theorem Coursed.conn_closed (coursed : Coursed answer config past world) {pending : Pending}
    (outstanding : pending ∈ world.client.outstanding)
    (onClosed : OnClosed past pending.st.handler) : world.closed pending.st.conn = true := by
  obtain ⟨pendingsEq, _⟩ := coursed.carried outstanding
  cases coursed.failing _ onClosed with
  | reading st readingEq _ closedEq =>
      rw [pendingsEq] at readingEq
      have stEq : pending.st = st := congrArg Pending.st (List.singleton_inj.mp readingEq)
      rw [stEq, closedEq]
  | failed error noPendings => simp [pendingsEq] at noPendings

/-- Only a write or a read is about a connection, open or closed. -/
theorem Coursed.not_isStage (coursed : Coursed answer config past world) {pending : Pending}
    (outstanding : pending ∈ world.client.outstanding)
    (closedEq : world.closed pending.st.conn = true) : ¬ pending.operation.IsStage := by
  intro isStage
  rw [coursed.accounts.unconnected pending outstanding isStage] at closedEq
  cases closedEq

theorem Coursed.advance (coursed : Coursed answer config past world) {pending : Pending}
    {writeFails : Bool}
    (stepped : step answer beast config world (.advance pending writeFails) = some next) :
    Coursed answer config (past ++ [(world, .advance pending writeFails)]) next := by
  have closes := step_closes stepped
  obtain ⟨client, completed, rfl⟩ := step_advance_eq_some_iff.mp stepped
  have onClosedIff : ∀ call,
      OnClosed (past ++ [(world, .advance pending writeFails)]) call ↔
        OnClosed past call ∨
          (pending.st.handler = call ∧ world.closed pending.st.conn = true) := by
    intro call
    rw [onClosed_append_iff]
    refine or_congr_right ⟨?_, fun own => ⟨pending, writeFails, rfl, own⟩⟩
    rintro ⟨_, _, eventEq, own⟩
    cases eventEq
    exact own
  have accounts := coursed.accounts.step completed
  have fresh := coursed.fresh.step completed
  obtain ⟨outstanding, clientEq⟩ := step_completion_eq_some_iff.mp completed
  rw [completion_operation] at outstanding clientEq
  obtain ⟨pendingsEq, resultsEq⟩ := coursed.carried outstanding
  have callsEq : client.calls = world.client.calls := by
    rw [← clientEq]
    exact callback_calls config _ pending.st _
  refine ⟨accounts, fresh, fun call request isCall notClosed => ?_, fun call onClosed => ?_⟩
  · rw [onClosedIff, not_or] at notClosed
    dsimp only at isCall ⊢
    rw [callsEq] at isCall
    have before := coursed.onCourse call request isCall notClosed.1
    by_cases own : pending.st.handler = call
    · subst own
      have openEq : world.closed pending.st.conn = false := by simpa using notClosed.2
      exact before.completion (completion_answers pending writeFails openEq) completed
    · rw [step_view_other own completed]
      exact before
  · rw [onClosedIff] at onClosed
    by_cases own : pending.st.handler = call
    · subst own
      have closedEq : world.closed pending.st.conn = true :=
        onClosed.elim (coursed.conn_closed outstanding) And.right
      have transfers := coursed.not_isStage outstanding closedEq
      have finished := finish_view pendingsEq
      dsimp only
      rw [← clientEq]
      exact failing_callback writeFails closedEq (fun conn => clientEq ▸ closes conn) transfers
        (congrArg View.pendings finished) ((congrArg View.results finished).trans resultsEq)
    · have before := onClosed.resolve_right fun both => own both.1
      dsimp only
      rw [step_view_other own completed]
      exact (coursed.failing call before).mono closes

theorem run_coursed {events : List Event}
    (run : runFrom (step answer beast config) {} events = some world) :
    Coursed answer config (trace (step answer beast config) {} events) world := by
  refine invariant_of_trace (Coursed answer config) ?_ run ?_
  · intro past state later event coursed stepped
    cases event with
    | call request => exact coursed.call stepped
    | close index => exact coursed.close stepped
    | advance pending writeFails => exact coursed.advance stepped
  · refine ⟨accounts_initially config, fun _ _ => rfl, fun _ _ isCall => (nomatch isCall), ?_⟩
    rintro call ⟨_, member, _⟩
    cases member

end Coursed

section Results

variable {answer : Nat → Nat → Request → WireResponse} {config : Config}
  {past : List (World × Event)} {world : World} {call : Nat} {result : RestResult}

theorem mem_results (invoked : (call, result) ∈ world.client.invocations) :
    result ∈ (world.client.view call).results := by
  simp only [Client.view, List.mem_map, List.mem_filter, decide_eq_true_eq]
  exact ⟨(call, result), ⟨invoked, rfl⟩, rfl⟩

/-- On open connections a call is given the end of its chain. -/
theorem Coursed.result_eq (coursed : Coursed answer config past world)
    (notClosed : ¬ OnClosed past call) {request : Request}
    (isCall : world.client.calls[call]? = some request)
    (invoked : (call, result) ∈ world.client.invocations) :
    result = toResult (chain config.toClientConfig (answer call) 0 request).2 := by
  have member := mem_results invoked
  cases coursed.onCourse call request isCall notClosed with
  | carried _ _ _ _ resultsEq => simp [resultsEq] at member
  | answered _ resultsEq => simpa [resultsEq] using member

theorem Coursed.result_failed (coursed : Coursed answer config past world)
    (onClosed : OnClosed past call) (invoked : (call, result) ∈ world.client.invocations) :
    result = .error .writeFailed ∨ result = .error .readFailed := by
  have member := mem_results invoked
  cases coursed.failing call onClosed with
  | reading _ _ resultsEq => simp [resultsEq] at member
  | failed error _ resultsEq isFailure =>
      obtain rfl : result = .error error := by simpa [resultsEq] using member
      exact isFailure.imp (congrArg _) (congrArg _)

theorem Coursed.invoked_lt (coursed : Coursed answer config past world)
    (invoked : (call, result) ∈ world.client.invocations) :
    call < world.client.calls.length := by
  by_contra later
  have member := mem_results invoked
  rw [coursed.fresh call (Nat.le_of_not_lt later)] at member
  cases member

end Results

section ShutDowns

variable {beast : Beast} (config : Config) (client : Client) (st : RequestState)

theorem releaseConnection_shutDowns (conn : Option Nat) (reusable : Bool) :
    client.shutDowns ⊆ (releaseConnection config client conn reusable).shutDowns := by
  cases conn with
  | none => exact List.Subset.refl _
  | some index =>
      rw [releaseConnection]
      split
      · exact List.subset_append_left _ _
      · exact List.Subset.refl _

theorem afterResponse_shutDowns (response : WireResponse) (readBuffer : Bytes) :
    client.shutDowns ⊆ (afterResponse config client st response readBuffer).shutDowns := by
  refine List.Subset.trans ?_ (releaseConnection_shutDowns config _ st.conn response.keepAlive)
  cases st.conn <;> exact List.Subset.refl _

theorem startRequest_shutDowns (request : Request) (redirectCount handler : Nat) :
    (startRequest beast config client request redirectCount handler).shutDowns =
      client.shutDowns := by
  rw [startRequest]
  split <;> rfl

theorem onResponse_shutDowns (response : WireResponse) (readBuffer : Bytes) :
    (onResponse beast config client st (.ok (response, readBuffer))).shutDowns =
      (afterResponse config client st response readBuffer).shutDowns := by
  rw [onResponse]
  dsimp only
  split
  · split
    · rfl
    · exact startRequest_shutDowns config _ _ _ _
  · rfl

theorem callback_shutDowns (completion : Completion) :
    client.shutDowns ⊆ (callback beast config client st completion).shutDowns := by
  cases completion with
  | resolve failed serverNameSet hostSet =>
      rw [callback, onResolve, doConnect]
      split_ifs <;> exact List.Subset.refl _
  | connect failed =>
      rw [callback, onConnect]
      split_ifs <;> exact List.Subset.refl _
  | tlsHandshake failed =>
      rw [callback, onTlsHandshake]
      split_ifs <;> exact List.Subset.refl _
  | write failed =>
      rw [callback, onWrite]
      split_ifs
      · exact releaseConnection_shutDowns config client st.conn false
      · exact List.Subset.refl _
  | read result =>
      cases result with
      | error error => exact releaseConnection_shutDowns config client st.conn false
      | ok received =>
          rw [callback, onResponse_shutDowns]
          exact afterResponse_shutDowns config client st _ _

/-- A full pool shuts the connection of a response down. -/
theorem onResponse_shuts_down {index : Nat} (noPool : config.maxPoolSize = 0)
    (connEq : st.conn = some index) (response : WireResponse) (readBuffer : Bytes) :
    index ∈ (onResponse beast config client st (.ok (response, readBuffer))).shutDowns := by
  rw [onResponse_shutDowns, afterResponse, connEq, releaseConnection]
  simp [noPool]

end ShutDowns

/-- Without a pool every connection the peer has closed has been shut down. -/
structure Unpooled (config : Config) (world : World) : Prop where
  accounts : Accounts config world.client [] []
  noneIdle : world.closedIdle = []
  shutDown : ∀ index ∈ world.closedByResponse, index ∈ world.client.shutDowns

section Unpooled

variable {answer : Nat → Nat → Request → WireResponse} {beast : Beast} {config : Config}
  {world next : World}

theorem Unpooled.open (unpooled : Unpooled config world) {pending : Pending}
    (outstanding : pending ∈ world.client.outstanding) :
    world.closed pending.st.conn = false := by
  cases connEq : pending.st.conn with
  | none => rfl
  | some index =>
      have held : index ∈ world.client.held := List.mem_filterMap.mpr ⟨pending, outstanding, connEq⟩
      have notShutDown : index ∉ world.client.shutDowns := by
        intro shutDown
        have once := unpooled.accounts.connection_once index
        have heldCount := List.count_pos_iff.mpr held
        have shutDownCount := List.count_pos_iff.mpr shutDown
        rw [Client.places, existing] at once
        split at once <;> omega
      simp only [World.closed, unpooled.noneIdle, decide_eq_false_iff_not]
      rintro (idle | closed)
      · cases idle
      · exact notShutDown (unpooled.shutDown index closed)

theorem Unpooled.step (noPool : config.maxPoolSize = 0) {event : Event}
    (unpooled : Unpooled config world)
    (stepped : step answer beast config world event = some next) :
    Unpooled config next := by
  cases event with
  | call request =>
      obtain ⟨client, called, rfl⟩ := step_call_eq_some_iff.mp stepped
      have accounts := unpooled.accounts.step called
      obtain ⟨_, rfl⟩ := RestClientAsync.step_call_eq_some_iff.mp called
      refine ⟨accounts, unpooled.noneIdle, fun index closed => ?_⟩
      dsimp only
      rw [onCall, startRequest_shutDowns]
      exact unpooled.shutDown index closed
  | close index =>
      rw [Peer.step, Option.ite_none_right_eq_some] at stepped
      have empty : world.client.idlePool = [] := by
        have bound := unpooled.accounts.pool_le
        rw [noPool] at bound
        exact List.eq_nil_of_length_eq_zero (Nat.le_zero.mp bound)
      simp [empty] at stepped
  | advance pending writeFails =>
      obtain ⟨client, completed, rfl⟩ := step_advance_eq_some_iff.mp stepped
      have accounts := unpooled.accounts.step completed
      obtain ⟨_, rfl⟩ := step_completion_eq_some_iff.mp completed
      refine ⟨accounts, unpooled.noneIdle, fun index closed => ?_⟩
      rw [List.mem_append] at closed
      rcases closed with closed | delimited
      · exact callback_shutDowns config _ pending.st _ (unpooled.shutDown index closed)
      · rw [World.delimited] at delimited
        split at delimited
        next ends =>
          obtain ⟨isRead, isOpen, _⟩ := ends
          have connEq : pending.st.conn = some index := by simpa using delimited
          dsimp only
          rw [World.completion, isRead]
          dsimp only
          rw [if_neg isOpen]
          exact onResponse_shuts_down config _ pending.st noPool connEq _ _
        · cases delimited

theorem run_open {events : List Event} (noPool : config.maxPoolSize = 0)
    (run : runFrom (step answer beast config) {} events = some world) (call : Nat) :
    ¬ OnClosed (trace (step answer beast config) {} events) call := by
  have reached := invariant_of_trace
    (fun past world => Unpooled config world ∧ ¬ OnClosed past call) ?_ run ?_
  · exact reached.2
  · rintro past state later event ⟨unpooled, isOpen⟩ stepped
    refine ⟨unpooled.step noPool stepped, ?_⟩
    rw [onClosed_append_iff, not_or]
    refine ⟨isOpen, ?_⟩
    rintro ⟨pending, writeFails, rfl, _, closedEq⟩
    obtain ⟨client, completed, _⟩ := step_advance_eq_some_iff.mp stepped
    obtain ⟨outstanding, _⟩ := step_completion_eq_some_iff.mp completed
    rw [completion_operation] at outstanding
    rw [unpooled.open outstanding] at closedEq
    cases closedEq
  · refine ⟨⟨accounts_initially config, rfl, nofun⟩, ?_⟩
    rintro ⟨_, member, _⟩
    cases member

end Unpooled

/-- A call whose messages have all met open connections is given the result it
is given with an empty pool; one with a message on a connection closed while it
was idle is given the failure of the write or the read. -/
theorem pooled_calls_agree {answer : Nat → Nat → Request → WireResponse} {beast : Beast}
    {config : Config}
    {events freshEvents : List Event} {world fresh : World}
    (run : runFrom (step answer beast config) {} events = some world)
    (freshRun : runFrom (step answer beast { config with maxPoolSize := 0 }) {} freshEvents =
      some fresh)
    (sameCalls : fresh.client.calls = world.client.calls) (call : Nat) :
    (¬ OnClosed (trace (step answer beast config) {} events) call → ∀ result freshResult,
      (call, result) ∈ world.client.invocations →
        (call, freshResult) ∈ fresh.client.invocations → result = freshResult) ∧
    (OnClosedIdle (trace (step answer beast config) {} events) call → ∀ result,
      (call, result) ∈ world.client.invocations →
        result = .error .writeFailed ∨ result = .error .readFailed) := by
  have coursed := run_coursed run
  refine ⟨fun isOpen result freshResult invoked freshInvoked => ?_,
    fun onClosedIdle result invoked => coursed.result_failed onClosedIdle.onClosed invoked⟩
  have inside := coursed.invoked_lt invoked
  have isCall : world.client.calls[call]? = some world.client.calls[call] :=
    List.getElem?_eq_getElem inside
  have freshCall : fresh.client.calls[call]? = some world.client.calls[call] := by
    rw [sameCalls, isCall]
  rw [coursed.result_eq isOpen isCall invoked,
    (run_coursed freshRun).result_eq (run_open rfl freshRun call) freshCall freshInvoked]

/-- A second call on the connection of the first is given the result it is given
on a connection of its own. -/
theorem reused_connection_agrees :
    ∃ answer config events freshEvents world fresh result,
      runFrom (step answer .simple config) {} events = some world ∧
        runFrom (step answer .simple { config with maxPoolSize := 0 }) {} freshEvents = some fresh ∧
          world.client.connections.length = 1 ∧ fresh.client.connections.length = 2 ∧
            (1, result) ∈ world.client.invocations ∧ (1, result) ∈ fresh.client.invocations := by
  let response : WireResponse :=
    { status := 200, reason := [], body := [], fields := [], keepAlive := true
      delimitedByClose := false }
  let answer : Nat → Nat → Request → WireResponse := fun _ _ _ => response
  let config : Config := { host := [104], https := false }
  let first := newState .simple config (get [47] []) 0 0
  let second := newState .simple config (get [47] []) 0 1
  let connected : List Event :=
    [.call (get [47] []), .advance ⟨.resolve, first⟩ false, .advance ⟨.connect, first⟩ false,
      .advance ⟨.write, { first with conn := some 0 }⟩ false,
      .advance ⟨.read, { first with conn := some 0 }⟩ false, .call (get [47] [])]
  let events : List Event := connected ++
    [.advance ⟨.write, { second with conn := some 0 }⟩ false,
      .advance ⟨.read, { second with conn := some 0 }⟩ false]
  let freshEvents : List Event := connected ++
    [.advance ⟨.resolve, second⟩ false, .advance ⟨.connect, second⟩ false,
      .advance ⟨.write, { second with conn := some 1 }⟩ false,
      .advance ⟨.read, { second with conn := some 1 }⟩ false]
  have completes : (runFrom (step answer .simple config) {} events).map
      (fun world => (world.client.connections.length, world.client.invocations[1]?)) =
        some (1, some (1, .ok (toHttpResponse .get response))) := by
    decide +kernel
  have freshCompletes : (runFrom (step answer .simple { config with maxPoolSize := 0 }) {}
      freshEvents).map
        (fun fresh => (fresh.client.connections.length, fresh.client.invocations[1]?)) =
          some (2, some (1, .ok (toHttpResponse .get response))) := by
    decide +kernel
  have sameCalls : (runFrom (step answer .simple { config with maxPoolSize := 0 }) {}
      freshEvents).map (fun fresh => fresh.client.calls) =
        (runFrom (step answer .simple config) {} events).map fun world => world.client.calls := by
    decide +kernel
  have allOpen : ∀ taken ∈ trace (step answer .simple config) {} events,
      taken.1.closedIdle = [] ∧ taken.1.closedByResponse = [] := by
    decide +kernel
  obtain ⟨world, run, ended⟩ := Option.map_eq_some_iff.mp completes
  obtain ⟨fresh, freshRun, freshEnded⟩ := Option.map_eq_some_iff.mp freshCompletes
  rw [run, freshRun, Option.map_some, Option.map_some, Option.some_inj] at sameCalls
  obtain ⟨connectionsEq, invoked⟩ := Prod.mk.inj ended
  obtain ⟨freshConnectionsEq, freshInvoked⟩ := Prod.mk.inj freshEnded
  have isOpen : ¬ OnClosed (trace (step answer .simple config) {} events) 1 := by
    rintro ⟨taken, member, pending, _, _, _, closedEq⟩
    obtain ⟨noneIdle, noneClosed⟩ := allOpen taken member
    cases connEq : pending.st.conn <;> simp [World.closed, connEq, noneIdle, noneClosed] at closedEq
  have agree := (pooled_calls_agree run freshRun sameCalls 1).1 isOpen _ _
    (List.mem_of_getElem? invoked) (List.mem_of_getElem? freshInvoked)
  refine ⟨answer, config, events, freshEvents, world, fresh, _, run, freshRun, connectionsEq,
    freshConnectionsEq, List.mem_of_getElem? invoked, ?_⟩
  rw [agree]
  exact List.mem_of_getElem? freshInvoked

/-- The peer closes the idle connection of the first call; the second call, sent
on it, fails, where with an empty pool it is answered. -/
theorem closed_idle_connection_fails :
    ∃ answer config events freshEvents world fresh response,
      runFrom (step answer .simple config) {} events = some world ∧
        runFrom (step answer .simple { config with maxPoolSize := 0 }) {} freshEvents = some fresh ∧
          fresh.client.calls = world.client.calls ∧
            (1, .error .writeFailed) ∈ world.client.invocations ∧
              (1, .ok response) ∈ fresh.client.invocations := by
  let response : WireResponse :=
    { status := 200, reason := [], body := [], fields := [], keepAlive := true
      delimitedByClose := false }
  let answer : Nat → Nat → Request → WireResponse := fun _ _ _ => response
  let config : Config := { host := [104], https := false }
  let first := newState .simple config (get [47] []) 0 0
  let second := newState .simple config (get [47] []) 0 1
  let answered : List Event :=
    [.call (get [47] []), .advance ⟨.resolve, first⟩ false, .advance ⟨.connect, first⟩ false,
      .advance ⟨.write, { first with conn := some 0 }⟩ false,
      .advance ⟨.read, { first with conn := some 0 }⟩ false]
  let events : List Event := answered ++
    [.close 0, .call (get [47] []), .advance ⟨.write, { second with conn := some 0 }⟩ true]
  let freshEvents : List Event := answered ++
    [.call (get [47] []), .advance ⟨.resolve, second⟩ false, .advance ⟨.connect, second⟩ false,
      .advance ⟨.write, { second with conn := some 1 }⟩ false,
      .advance ⟨.read, { second with conn := some 1 }⟩ false]
  have completes : (runFrom (step answer .simple config) {} events).map
      (fun world => (world.client.calls, world.client.invocations[1]?)) =
        some ([get [47] [], get [47] []], some (1, .error .writeFailed)) := by
    decide +kernel
  have freshCompletes : (runFrom (step answer .simple { config with maxPoolSize := 0 }) {}
      freshEvents).map (fun fresh => (fresh.client.calls, fresh.client.invocations[1]?)) =
        some ([get [47] [], get [47] []],
          some (1, .ok (toHttpResponse .get response))) := by
    decide +kernel
  obtain ⟨world, run, ended⟩ := Option.map_eq_some_iff.mp completes
  obtain ⟨fresh, freshRun, freshEnded⟩ := Option.map_eq_some_iff.mp freshCompletes
  obtain ⟨callsEq, invoked⟩ := Prod.mk.inj ended
  obtain ⟨freshCallsEq, freshInvoked⟩ := Prod.mk.inj freshEnded
  exact ⟨answer, config, events, freshEvents, world, fresh, _, run, freshRun,
    freshCallsEq.trans callsEq.symm, List.mem_of_getElem? invoked,
    List.mem_of_getElem? freshInvoked⟩

end Peer

end RestClientAsync

end ExchangeConnectivity
