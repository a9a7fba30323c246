import ExchangeConnectivity.RedirectAgreement
import ExchangeConnectivity.RestClientAsyncRequests

/-!
# How long a call can take

Whatever the server answers, whatever fails and whatever other calls are under
way: a call has at most five operations for its request and five for each
redirect followed, and as long as its handler has not been invoked one of them
is outstanding.
-/

namespace ExchangeConnectivity

open ActionRuns ByteStrings HttpExchange

namespace RestClientAsync

/-- A bound on the operations that still end for a call. -/
def View.weight (config : Config) (view : View) : Nat :=
  (view.pendings.map (Pending.weight config)).sum

/-- How many operations of a call have ended. -/
def endedOf (events : List Event) (call : Nat) : Nat :=
  events.countP fun event =>
    match event with
    | .call _ => false
    | .completion st _ => st.handler = call

theorem Operation.rank_le (operation : Operation) : operation.rank ≤ 5 := by
  cases operation <;> decide

theorem Operation.rank_pos (operation : Operation) : 0 < operation.rank := by
  cases operation <;> decide

theorem Pending.weight_pos (config : Config) (pending : Pending) :
    0 < pending.weight config :=
  Nat.lt_of_lt_of_le pending.operation.rank_pos (Nat.le_add_left _ _)

theorem endedOf_call (events : List Event) (request : Request) (call : Nat) :
    endedOf (events ++ [.call request]) call = endedOf events call := by
  simp [endedOf]

theorem endedOf_completion (events : List Event) (st : RequestState) (completion : Completion)
    (call : Nat) :
    endedOf (events ++ [.completion st completion]) call =
      endedOf events call + if st.handler = call then 1 else 0 := by
  rw [endedOf, List.countP_append]
  by_cases own : st.handler = call <;> simp [endedOf, own]

section Callbacks

variable (beast : Beast) (config : Config) (client : Client) (st : RequestState)

theorem start_view_weight (operation : Operation) :
    ((client.start operation st).view st.handler).weight config =
      (client.view st.handler).weight config +
        Pending.weight config { operation, st } := by
  rw [start_view]
  simp [View.weight]

theorem invoke_view_weight (result : RestResult) (call : Nat) :
    ((client.invoke st result).view call).weight config =
      (client.view call).weight config :=
  rfl

theorem useStream_view_weight :
    ((useStream config client st).view st.handler).weight config =
      (client.view st.handler).weight config +
        Pending.weight config { operation := .write, st } := by
  have sent := sendAndReceive_view
    { client with connections := client.connections ++ [{ isTls := config.https }] }
    { st with conn := some client.connections.length }
  dsimp only at sent
  rw [useStream, sent]
  simp [View.weight, Pending.weight, Client.view]

theorem startRequest_view_weight_le (request : Request) (redirectCount handler : Nat) :
    ((startRequest beast config client request redirectCount handler).view handler).weight config ≤
      (client.view handler).weight config + 5 * (config.maxRedirects - redirectCount) + 5 := by
  obtain ⟨operation, conn, started⟩ :=
    startRequest_view config client request redirectCount handler
  have bound := operation.rank_le
  rw [started]
  simp only [View.weight, Pending.weight, newState, List.map_append, List.map_singleton,
    List.sum_append, List.sum_singleton]
  omega

/-- A redirect is only followed below the limit, so each callback leaves fewer
operations than there were. -/
theorem callback_view_weight_lt (completion : Completion) :
    ((callback beast config client st completion).view st.handler).weight config <
      (client.view st.handler).weight config +
        Pending.weight config { operation := completion.operation, st } := by
  have positive := Pending.weight_pos config { operation := completion.operation, st }
  have invoked : ∀ (released : Client) (state : RequestState) (result : RestResult),
      released.view st.handler = client.view st.handler →
        ((released.invoke state result).view st.handler).weight config <
          (client.view st.handler).weight config +
            Pending.weight config { operation := completion.operation, st } := by
    intro released state result sameView
    rw [invoke_view_weight, sameView]
    exact Nat.lt_add_of_pos_right positive
  have abandoned := invoked (releaseConnection config client st.conn false)
  have started : ∀ operation : Operation, operation.rank < completion.operation.rank →
      ((client.start operation st).view st.handler).weight config <
        (client.view st.handler).weight config +
          Pending.weight config { operation := completion.operation, st } := by
    intro operation fewer
    rw [start_view_weight]
    exact Nat.add_lt_add_left (Nat.add_lt_add_left fewer _) _
  have written : Operation.rank .write < completion.operation.rank →
      ((useStream config client st).view st.handler).weight config <
        (client.view st.handler).weight config +
          Pending.weight config { operation := completion.operation, st } := by
    intro fewer
    rw [useStream_view_weight]
    exact Nat.add_lt_add_left (Nat.add_lt_add_left fewer _) _
  cases completion with
  | resolve failed serverNameSet hostSet =>
      have connecting := started .connect (by simp [Completion.operation, Operation.rank])
      rw [callback, onResolve, doConnect]
      split_ifs
      all_goals first | exact invoked client st _ rfl | exact connecting
  | connect failed =>
      rw [callback, onConnect]
      split_ifs
      · exact invoked client st _ rfl
      · exact started .tlsHandshake (by simp [Completion.operation, Operation.rank])
      · exact written (by simp [Completion.operation, Operation.rank])
  | tlsHandshake failed =>
      rw [callback, onTlsHandshake]
      split_ifs
      · exact invoked client st _ rfl
      · exact written (by simp [Completion.operation, Operation.rank])
  | write failed =>
      rw [callback, onWrite]
      split_ifs
      · exact abandoned _ _ (releaseConnection_view ..)
      · exact started .read (by simp [Completion.operation, Operation.rank])
  | read result =>
      cases result with
      | error error => exact abandoned _ _ (releaseConnection_view ..)
      | ok received =>
          obtain ⟨response, readBuffer⟩ := received
          have sameView := afterResponse_view config client st response readBuffer st.handler
          rw [callback, onResponse]
          dsimp only
          split
          next follows =>
            split
            · exact invoked _ _ _ sameView
            · refine Nat.lt_of_le_of_lt (startRequest_view_weight_le beast config _ _ _ _) ?_
              obtain ⟨_, _, within, _⟩ := follows
              have oneRead : Pending.weight config
                  { operation := (Completion.read (.ok (response, readBuffer))).operation, st } =
                  5 * (config.maxRedirects - st.redirectCount) + 1 := rfl
              rw [oneRead]
              simp only [afterResponse] at sameView
              rw [sameView]
              omega
          · exact invoked _ _ _ sameView

end Callbacks

/-- The operations of a call that have ended and those left keep to the limit;
calls not made yet have none. -/
structure Limited (config : Config) (events : List Event) (client : Client) : Prop where
  fresh : client.Fresh
  unended : ∀ call, client.calls.length ≤ call → endedOf events call = 0
  limited : ∀ call < client.calls.length,
    endedOf events call + (client.view call).weight config ≤ 5 * (config.maxRedirects + 1)

section Steps

variable {beast : Beast} {config : Config} {events : List Event} {client next : Client}

theorem Limited.call (limited : Limited config events client) {request : Request}
    (stepped : step beast config client (.call request) = some next) :
    Limited config (events ++ [.call request]) next := by
  have freshNext := limited.fresh.step stepped
  obtain ⟨_, rfl⟩ := step_call_eq_some_iff.mp stepped
  have callsLength : (onCall beast config client request).calls.length =
      client.calls.length + 1 := by
    rw [onCall, startRequest_calls, List.length_append, List.length_singleton]
  refine ⟨freshNext, fun call later => ?_, fun call made => ?_⟩
  · rw [callsLength] at later
    rw [endedOf_call]
    exact limited.unended call (Nat.le_of_succ_le later)
  · rw [callsLength] at made
    rw [endedOf_call]
    rcases Nat.lt_succ_iff_lt_or_eq.mp made with before | rfl
    · rw [onCall, startRequest_view_other _ _ (Nat.ne_of_gt before)]
      exact limited.limited call before
    · have started := startRequest_view_weight_le beast config
        { client with calls := client.calls ++ [request] } request 0 client.calls.length
      have empty : Client.view { client with calls := client.calls ++ [request] }
          client.calls.length = {} := limited.fresh _ (Nat.le_refl _)
      have nothing : View.weight config {} = 0 := rfl
      rw [empty, nothing] at started
      rw [limited.unended _ (Nat.le_refl _), onCall]
      omega

/-- An operation that ends is no longer among those left. -/
theorem finish_view_weight {operation : Operation} {st : RequestState}
    (outstanding : { operation, st } ∈ client.outstanding) :
    (Client.view { client with outstanding := client.outstanding.erase { operation, st } }
        st.handler).weight config + Pending.weight config { operation, st } =
      (client.view st.handler).weight config := by
  have carried : { operation, st } ∈ (client.view st.handler).pendings := by
    simpa [Client.view] using outstanding
  have split := ((List.perm_cons_erase carried).map (Pending.weight config)).sum_nat
  rw [List.map_cons, List.sum_cons] at split
  rw [View.weight, View.weight, split, Nat.add_comm]
  congr 3
  exact (List.erase_filter ..).symm

theorem Limited.completion (limited : Limited config events client) {st : RequestState}
    {completion : Completion}
    (stepped : step beast config client (.completion st completion) = some next) :
    Limited config (events ++ [.completion st completion]) next := by
  have freshNext := limited.fresh.step stepped
  have others := fun call (other : st.handler ≠ call) => step_view_other other stepped
  obtain ⟨outstanding, rfl⟩ := step_completion_eq_some_iff.mp stepped
  have inside := limited.fresh.handler_lt outstanding
  refine ⟨freshNext, fun call later => ?_, fun call made => ?_⟩
  · rw [callback_calls] at later
    have other : st.handler ≠ call := Nat.ne_of_lt (Nat.lt_of_lt_of_le inside later)
    rw [endedOf_completion, if_neg other, limited.unended call later]
  · rw [callback_calls] at made
    have before := limited.limited call made
    rw [endedOf_completion]
    by_cases own : st.handler = call
    · subst own
      have lower := callback_view_weight_lt beast config
        { client with
          outstanding := client.outstanding.erase { operation := completion.operation, st } }
        st completion
      rw [finish_view_weight outstanding] at lower
      rw [if_pos rfl]
      omega
    · rw [if_neg own, others call own]
      exact before

theorem Limited.step {event : Event} (limited : Limited config events client)
    (stepped : step beast config client event = some next) :
    Limited config (events ++ [event]) next := by
  cases event with
  | call request => exact limited.call stepped
  | completion st completion => exact limited.completion stepped

end Steps

/-- At most five operations of a call end for its request and for each redirect
it may follow, and until its handler has been invoked there is one more to end. -/
theorem calls_end {beast : Beast} {config : Config} {events : List Event} {client : Client}
    (run : runFrom (step beast config) {} events = some client) {call : Nat}
    (made : call < client.calls.length) :
    endedOf events call ≤ 5 * (config.maxRedirects + 1) ∧
      (client.invoked call = 1 ∨
        endedOf events call < 5 * (config.maxRedirects + 1) ∧
          ∃ pending ∈ client.outstanding, pending.st.handler = call) := by
  have limited : Limited config events client :=
    invariant_of_actions (Limited config) Limited.step run
      ⟨fun _ _ => rfl, fun _ _ => rfl, nofun⟩
  have bound := limited.limited call made
  have once := (run_accounts run).handler_once call
  rw [existing, if_pos made, List.count_nil, Nat.zero_add] at once
  refine ⟨Nat.le_trans (Nat.le_add_right _ _) bound, ?_⟩
  by_cases invoked : client.invoked call = 1
  · exact .inl invoked
  · have carried : 0 < client.carried call := by omega
    obtain ⟨⟨operation, st⟩, outstanding, isCall⟩ :=
      List.mem_map.mp (List.count_pos_iff.mp carried)
    obtain rfl : st.handler = call := isCall
    have positive := Pending.weight_pos config { operation, st }
    have left := @finish_view_weight config client operation st outstanding
    exact .inr ⟨by omega, _, outstanding, rfl⟩

/-- A call redirected once has written its second message and waits for the
response. -/
theorem calls_end_redirected :
    ∃ config events client,
      runFrom (step .simple config) {} events = some client ∧ endedOf events 0 = 5 ∧
        endedOf events 0 < 5 * (config.maxRedirects + 1) ∧
          ∃ pending ∈ client.outstanding, pending.st.handler = 0 := by
  let config : Config := { host := [104], https := false, maxRedirects := 1 }
  let first := newState .simple config (get [47] []) 0 0
  let second := { newState .simple config (get [47, 97] []) 1 0 with conn := some 0 }
  let redirect : WireResponse :=
    { status := 302, reason := [], body := [], fields := [(ascii "Location", [97])]
      keepAlive := true, delimitedByClose := false }
  let events : List Event :=
    [.call (get [47] []), .completion first (.resolve false true true),
      .completion first (.connect false),
      .completion { first with conn := some 0 } (.write false),
      .completion { first with conn := some 0 } (.read (.ok (redirect, []))),
      .completion second (.write false)]
  have completes : (runFrom (step .simple config) {} events).map
      (fun client => (client.calls.length, client.invocations.length)) = some (1, 0) := by
    decide +kernel
  obtain ⟨client, run, ended⟩ := Option.map_eq_some_iff.mp completes
  obtain ⟨oneCall, noneInvoked⟩ := Prod.mk.inj ended
  have notInvoked : client.invoked 0 ≠ 1 := by
    rw [Client.invoked, List.eq_nil_of_length_eq_zero noneInvoked]
    exact Nat.zero_ne_one
  obtain ⟨fewer, carried⟩ := (calls_end run (by omega)).2.resolve_left notInvoked
  exact ⟨config, events, client, run, rfl, fewer, carried⟩

end RestClientAsync

end ExchangeConnectivity
