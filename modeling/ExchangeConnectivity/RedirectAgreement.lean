import ExchangeConnectivity.AnsweredRequests
import ExchangeConnectivity.RestClient
import Mathlib.Algebra.GroupWithZero.Nat

/-!
# The two REST clients follow the same redirects

Against a server that answers every message, the recursion of the synchronous
client and the callbacks of the asynchronous one send the same requests and end
alike: both go through the chain of redirects the request starts.
-/

namespace ExchangeConnectivity

open ActionRuns ByteStrings HttpExchange RedirectChains

section Synchronous

variable {beast : Beast} {config : ClientConfig} {request next : Request}

/-- Beast accepts the message of a redirect as it accepted the one before. -/
theorem nextRequest_accepted (accepted : beast.accepts request) {out : HttpResponse}
    (redirected : nextRequest config request out = some (.ok next)) : beast.accepts next := by
  rw [nextRequest, Option.ite_none_right_eq_some, Option.some_inj] at redirected
  obtain ⟨_, redirected⟩ := redirected
  cases path : extractRedirectPath (out.header (ascii "Location")) config.host with
  | error _ => rw [path] at redirected; cases redirected
  | ok target =>
      rw [path] at redirected
      rw [← Except.ok.inj redirected]
      rw [← beast.accepts_target request target] at accepted
      by_cases seeOther : out.status = 303
      · rw [if_pos seeOther, if_pos seeOther]
        exact beast.accepts_get _ accepted
      · rw [if_neg seeOther, if_neg seeOther]
        exact accepted

/-- Without failures the recursion goes through the chain of redirects. -/
theorem execute_eq_chain (config : ClientConfig) (server : Request → WireResponse)
    {request : Request} (accepted : beast.accepts request) (hop : Nat) :
    RestClient.execute beast config (fun request _ => .ok (server request)) request hop =
      ((chain config (fun _ => server) hop request).1,
        (chain config (fun _ => server) hop request).2.mapError .crossHostRedirect) := by
  induction remaining : config.maxRedirects - hop generalizing request hop with
  | zero =>
      have exhausted : config.maxRedirects ≤ hop := Nat.le_of_sub_eq_zero remaining
      rw [RestClient.execute, if_neg (not_not.mpr accepted), chain_of_exhausted exhausted]
      dsimp only
      rw [if_neg fun both => absurd both.2.2 (Nat.not_lt_of_le exhausted)]
      rfl
  | succ remaining ih =>
      have within : hop < config.maxRedirects := by omega
      rw [RestClient.execute, if_neg (not_not.mpr accepted)]
      dsimp only
      cases redirected : nextRequest config request
          (toHttpResponse request.method (server request)) with
      | none =>
          rw [chain_of_final redirected]
          rw [nextRequest, ite_eq_right_iff] at redirected
          split
          next followed =>
            rw [if_neg]
            · rfl
            · intro located
              cases redirected ⟨followed.1, followed.2.1, located⟩
          · rfl
      | some target =>
          have decided := redirected
          rw [nextRequest, Option.ite_none_right_eq_some, Option.some_inj] at decided
          obtain ⟨⟨follows, isRedirect, located⟩, decided⟩ := decided
          rw [if_pos ⟨follows, isRedirect, within⟩, if_pos located, RestClient.resolveRedirect]
          cases path : extractRedirectPath
              ((toHttpResponse request.method (server request)).header (ascii "Location"))
              config.host with
          | error what =>
              rw [path] at decided
              subst decided
              rw [chain_of_refused within redirected]
              rfl
          | ok path' =>
              rw [path] at decided
              subst decided
              rw [chain_of_redirect within redirected]
              dsimp only
              rw [ih (nextRequest_accepted accepted redirected) (hop + 1) (by omega)]

end Synchronous

namespace RestClientAsync

/-- The completion of an operation succeeds, with the server's answer. -/
def Event.Answered (server : Request → WireResponse) : Event → Prop
  | .call _ => True
  | .completion st ending => Answers (fun _ => server) st ending

/-- Every call made so far was accepted and is on course. -/
structure AllOnCourse (beast : Beast) (config : Config) (server : Request → WireResponse)
    (client : Client) : Prop where
  fresh : client.Fresh
  accepted : ∀ request ∈ client.calls, beast.accepts request
  onCourse : ∀ call request, client.calls[call]? = some request →
    OnCourse config (fun _ => server) request (client.view call)

theorem AllOnCourse.step {beast : Beast} {config : Config} {server : Request → WireResponse}
    {client next : Client} {event : Event} (answered : event.Answered server)
    (all : AllOnCourse beast config server client)
    (stepped : RestClientAsync.step beast config client event = some next) :
    AllOnCourse beast config server next := by
  have fresh := all.fresh.step stepped
  cases event with
  | call made =>
      obtain ⟨accepted, rfl⟩ := step_call_eq_some_iff.mp stepped
      have callsEq : (onCall beast config client made).calls = client.calls ++ [made] :=
        startRequest_calls config _ made 0 _
      refine ⟨fresh, fun request member => ?_, fun call request isCall => ?_⟩
      · rw [callsEq, List.mem_append, List.mem_singleton] at member
        rcases member with member | rfl
        · exact all.accepted request member
        · exact accepted
      · rcases onCall_cases isCall with ⟨madeBefore, viewEq⟩ | ⟨rfl, rfl⟩
        · rw [viewEq]
          exact all.onCourse call request madeBefore
        · exact all.fresh.onCourse_onCall beast config _ request
  | completion st completion =>
      have callsEq : next.calls = client.calls := by
        obtain ⟨_, rfl⟩ := step_completion_eq_some_iff.mp stepped
        exact callback_calls config _ st completion
      refine ⟨fresh, callsEq ▸ all.accepted, fun call request isCall => ?_⟩
      rw [callsEq] at isCall
      have before := all.onCourse call request isCall
      by_cases own : st.handler = call
      · subst own
        exact before.completion answered stepped
      · rw [step_view_other own stepped]
        exact before

theorem run_allOnCourse {beast : Beast} {config : Config} {server : Request → WireResponse}
    {events : List Event}
    {client : Client} (answered : ∀ event ∈ events, event.Answered server)
    (run : runFrom (step beast config) {} events = some client) :
    AllOnCourse beast config server client := by
  have initially : AllOnCourse beast config server {} :=
    ⟨fun _ _ => rfl, nofun, fun _ _ isCall => nomatch isCall⟩
  exact invariant_of_run_of_forall AllOnCourse.step answered run initially

/-- The operations a message still needs. -/
def Operation.rank : Operation → Nat
  | .resolve => 5
  | .connect => 4
  | .tlsHandshake => 3
  | .write => 2
  | .read => 1

/-- A bound on the operations a call still needs. -/
def Pending.weight (config : Config) (pending : Pending) : Nat :=
  5 * (config.maxRedirects - pending.st.redirectCount) + pending.operation.rank

def Client.weight (config : Config) (client : Client) : Nat :=
  (client.outstanding.map (Pending.weight config)).sum

section Weights

variable (beast : Beast) (config : Config) (client : Client) (st : RequestState)

theorem start_weight (operation : Operation) :
    (client.start operation st).weight config =
      client.weight config + Pending.weight config { operation, st } := by
  simp [Client.weight, Client.start]

theorem releaseConnection_weight (conn : Option Nat) (reusable : Bool) :
    (releaseConnection config client conn reusable).weight config = client.weight config := by
  cases conn with
  | none => rfl
  | some index =>
      rw [releaseConnection]
      split <;> rfl

theorem afterResponse_weight (response : WireResponse) (readBuffer : Bytes) :
    (afterResponse config client st response readBuffer).weight config =
      client.weight config := by
  rw [afterResponse, releaseConnection_weight]
  cases st.conn <;> rfl

theorem startRequest_weight_le (request : Request) (redirectCount handler : Nat) :
    (startRequest beast config client request redirectCount handler).weight config ≤
      client.weight config + 5 * (config.maxRedirects - redirectCount) + 5 := by
  rw [startRequest]
  split
  next index rest pool =>
    rw [sendAndReceive, start_weight]
    simp only [Pending.weight, newState, Operation.rank, Client.weight]
    omega
  next pool =>
    rw [start_weight]
    simp only [Pending.weight, newState, Operation.rank]
    omega

/-- A callback leaves less to do. -/
theorem callback_weight_lt {server : Request → WireResponse} {completion : Completion}
    (answers : Answers (fun _ => server) st completion) :
    (callback beast config client st completion).weight config <
      client.weight config + Pending.weight config { operation := completion.operation, st } := by
  cases completion with
  | resolve failed serverNameSet hostSet =>
      obtain ⟨rfl, rfl, rfl⟩ := answers
      have started := start_weight config client st .connect
      simp only [Pending.weight, Operation.rank, Completion.operation] at started ⊢
      simp [callback, onResolve, doConnect, started]
  | connect failed =>
      obtain rfl : failed = false := answers
      rw [callback, onConnect, if_neg (by simp)]
      split
      · rw [start_weight]
        simp [Pending.weight, Operation.rank, Completion.operation]
      · rw [useStream, sendAndReceive, start_weight]
        simp [Pending.weight, Operation.rank, Completion.operation, Client.weight]
  | tlsHandshake failed =>
      obtain rfl : failed = false := answers
      rw [callback, onTlsHandshake, if_neg (by simp), useStream, sendAndReceive, start_weight]
      simp [Pending.weight, Operation.rank, Completion.operation, Client.weight]
  | write failed =>
      obtain rfl : failed = false := answers
      rw [callback, onWrite, if_neg (by simp), start_weight]
      simp [Pending.weight, Operation.rank, Completion.operation]
  | read result =>
      obtain ⟨readBuffer, rfl⟩ := answers
      have released := afterResponse_weight config client st (server st.request) readBuffer
      simp only [callback, Pending.weight, Operation.rank, Completion.operation]
      have ended : ∀ result : RestResult,
          ((afterResponse config client st (server st.request) readBuffer).invoke
            { st with conn := none } result).weight config = client.weight config :=
        fun _ => released
      by_cases within : st.redirectCount < config.maxRedirects
      · cases redirected : nextRequest config.toClientConfig st.request
            (toHttpResponse st.request.method (server st.request)) with
        | none =>
            rw [onResponse_final _ _ _ _ fun _ => redirected, ended]
            omega
        | some target =>
            cases target with
            | error what =>
                rw [onResponse_refused _ _ _ _ within redirected, ended]
                omega
            | ok next =>
                rw [onResponse_redirect _ _ _ _ within redirected]
                have bound := startRequest_weight_le beast config
                  (afterResponse config client st (server st.request) readBuffer) next
                  (st.redirectCount + 1) st.handler
                rw [released] at bound
                omega
      · rw [onResponse_final _ _ _ _ fun less => absurd less within, ended]
        omega

end Weights

/-- The successful completion of an operation. -/
def Pending.answeredBy (server : Request → WireResponse) (pending : Pending) : Completion :=
  match pending.operation with
  | .resolve => .resolve false true true
  | .connect => .connect false
  | .tlsHandshake => .tlsHandshake false
  | .write => .write false
  | .read => .read (.ok (server pending.st.request, []))

theorem answeredBy_operation (server : Request → WireResponse) (pending : Pending) :
    (pending.answeredBy server).operation = pending.operation := by
  rw [Pending.answeredBy]
  split <;> simp [Completion.operation, *]

theorem answeredBy_answers (server : Request → WireResponse) (pending : Pending) :
    Answers (fun _ => server) pending.st (pending.answeredBy server) := by
  rw [Pending.answeredBy]
  split <;> simp [Answers]

/-- Completions that succeed bring every client to rest. -/
theorem exists_run_to_rest (beast : Beast) (config : Config) (server : Request → WireResponse)
    (client : Client) :
    ∃ events final, (∀ event ∈ events, event.Answered server) ∧
      runFrom (step beast config) client events = some final ∧ final.outstanding = [] := by
  induction weightEq : client.weight config using Nat.strongRecOn generalizing client with
  | ind weight ih =>
      cases outstanding : client.outstanding with
      | nil => exact ⟨[], client, List.forall_mem_nil _, runFrom_nil client, outstanding⟩
      | cons pending rest =>
          let completion := pending.answeredBy server
          let finished : Client := { client with outstanding := rest }
          have stepped : step beast config client (.completion pending.st completion) =
              some (callback beast config finished pending.st completion) := by
            have same : (⟨completion.operation, pending.st⟩ : Pending) = pending := by
              rw [answeredBy_operation]
            rw [step, same, outstanding, if_pos List.mem_cons_self, List.erase_cons_head]
          have less : (callback beast config finished pending.st completion).weight config <
              weight := by
            have bound := callback_weight_lt beast config finished pending.st
              (answeredBy_answers server pending)
            rw [answeredBy_operation] at bound
            have total : client.weight config =
                finished.weight config + pending.weight config := by
              simp [Client.weight, finished, outstanding, Nat.add_comm]
            rw [← weightEq, total]
            exact bound
          obtain ⟨events, final, answered, run, atRest⟩ := ih _ less _ rfl
          refine ⟨.completion pending.st completion :: events, final, ?_, ?_, atRest⟩
          · exact List.forall_mem_cons.mpr ⟨answeredBy_answers server pending, answered⟩
          · exact runFrom_cons_eq_some_iff.mpr ⟨_, stepped, run⟩

/-- The same response, or both times the refusal of another host. -/
def SameOutcome : Except RestClient.Failure HttpResponse → RestResult → Prop
  | .ok first, .ok second => first = second
  | .error (.crossHostRedirect _), .error .crossHostRedirect => True
  | _, _ => False

end RestClientAsync

end ExchangeConnectivity
