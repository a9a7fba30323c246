import ExchangeConnectivity.AnsweredRequests

/-!
# The end of a chain of redirects

Once `maxRedirects` redirects have been followed, the next redirect falls
through to the success path: its response is handed out like any other, and
`TooManyRedirects` is never reported.
-/

namespace ExchangeConnectivity

open ActionRuns ByteStrings HttpExchange

namespace RestClientAsync

/-- The response has a redirect status and carries a location. -/
def Redirects (out : HttpResponse) : Prop :=
  isRedirectStatus out.status = true ∧ out.header (ascii "Location") ≠ []

/-- No handler has been given a redirect. -/
def NoRedirectDelivered (client : Client) : Prop :=
  ∀ call out, (call, .ok out) ∈ client.invocations → ¬ Redirects out

/-- A redirect arrives while redirects may be followed. -/
def WithinLimit (config : Config) (_ : Client) : Event → Prop
  | .completion st (.read (.ok (response, _))) =>
      Redirects (toHttpResponse st.request.method response) →
        st.redirectCount < config.maxRedirects
  | _ => True

/-- A redirect to the same host that may not be followed is reported to the
handler. -/
def ReportsTooMany (beast : Beast) (config : Config) (client : Client) (event : Event) : Prop :=
  ∀ st response readBuffer, event = .completion st (.read (.ok (response, readBuffer))) →
    let out := toHttpResponse st.request.method response
    Redirects out → (∃ target, extractRedirectPath (out.header (ascii "Location")) config.host =
        .ok target) →
      config.maxRedirects ≤ st.redirectCount →
        ∀ next, step beast config client event = some next →
          next.invocations = client.invocations ++ [(st.handler, .error .tooManyRedirects)]

section Invocations

variable {beast : Beast} (config : Config) (client : Client) (st : RequestState)

@[simp]
theorem releaseConnection_invocations (conn : Option Nat) (reusable : Bool) :
    (releaseConnection config client conn reusable).invocations = client.invocations := by
  cases conn with
  | none => rfl
  | some index =>
      rw [releaseConnection]
      split <;> rfl

@[simp]
theorem fillBuffer_invocations (conn : Option Nat) (readBuffer : Bytes) :
    (fillBuffer client conn readBuffer).invocations = client.invocations := by
  cases conn <;> rfl

@[simp]
theorem startRequest_invocations (request : Request) (redirectCount handler : Nat) :
    (startRequest beast config client request redirectCount handler).invocations =
      client.invocations := by
  rw [startRequest]
  split <;> rfl

@[simp]
theorem afterResponse_invocations (response : WireResponse) (readBuffer : Bytes) :
    (afterResponse config client st response readBuffer).invocations = client.invocations := by
  rw [afterResponse, releaseConnection_invocations, fillBuffer_invocations]

/-- At most an error has been handed out since. -/
def FailsAtMost (before after : Client) : Prop :=
  after.invocations = before.invocations ∨
    ∃ call error, after.invocations = before.invocations ++ [(call, .error error)]

/-- Nothing but a response hands out a success. -/
theorem callback_failsAtMost {completion : Completion}
    (noResponse : ∀ received, completion ≠ .read (.ok received)) :
    FailsAtMost client (callback beast config client st completion) := by
  have invoked : ∀ error, FailsAtMost client (client.invoke st (.error error)) :=
    fun error => .inr ⟨_, error, rfl⟩
  have abandoned : ∀ error, FailsAtMost client
      (Client.invoke (releaseConnection config client st.conn false) { st with conn := none }
        (.error error)) := by
    intro error
    refine .inr ⟨st.handler, error, ?_⟩
    simp [Client.invoke]
  cases completion with
  | resolve failed serverNameSet hostSet =>
      rw [callback, onResolve, doConnect]
      split_ifs
      all_goals first | exact invoked _ | exact .inl rfl
  | connect failed =>
      rw [callback, onConnect]
      split_ifs
      all_goals first | exact invoked _ | exact .inl rfl
  | tlsHandshake failed =>
      rw [callback, onTlsHandshake]
      split_ifs
      all_goals first | exact invoked _ | exact .inl rfl
  | write failed =>
      rw [callback, onWrite]
      split_ifs
      all_goals first | exact abandoned _ | exact .inl rfl
  | read result =>
      cases result with
      | error error => exact abandoned _
      | ok received => exact absurd rfl (noResponse received)

theorem FailsAtMost.noRedirectDelivered_iff {before after : Client}
    (fails : FailsAtMost before after) :
    NoRedirectDelivered after ↔ NoRedirectDelivered before := by
  unfold NoRedirectDelivered
  rcases fails with same | ⟨handler, error, added⟩
  · rw [same]
  · simp [added]

end Invocations

section Steps

variable {beast : Beast} {config : Config} {client next : Client}

/-- A response is followed, refused or handed out; it is handed out although
it redirects when no redirect remains. -/
theorem onResponse_noRedirectDelivered_iff (follows : config.followRedirects = true)
    (noneBefore : NoRedirectDelivered client) (st : RequestState) (response : WireResponse)
    (readBuffer : Bytes) :
    NoRedirectDelivered (onResponse beast config client st (.ok (response, readBuffer))) ↔
      (Redirects (toHttpResponse st.request.method response) →
        st.redirectCount < config.maxRedirects) := by
  by_cases redirects : Redirects (toHttpResponse st.request.method response)
  · by_cases within : st.redirectCount < config.maxRedirects
    · refine iff_of_true ?_ fun _ => within
      have followed : nextRequest config.toClientConfig st.request
          (toHttpResponse st.request.method response) ≠ none := by
        rw [nextRequest, if_pos ⟨follows, redirects.1, redirects.2⟩]
        intro nothing
        cases nothing
      obtain ⟨target, redirected⟩ := Option.ne_none_iff_exists'.mp followed
      refine (FailsAtMost.noRedirectDelivered_iff ?_).mpr noneBefore
      cases target with
      | error what =>
          rw [onResponse_refused _ _ _ _ within redirected]
          refine .inr ⟨st.handler, .crossHostRedirect, ?_⟩
          simp [Client.invoke]
      | ok request =>
          rw [onResponse_redirect _ _ _ _ within redirected]
          exact .inl (by simp)
    · refine iff_of_false (fun later => ?_) fun allowed => within (allowed redirects)
      rw [onResponse_final _ _ _ _ fun less => absurd less within] at later
      refine later st.handler _ ?_ redirects
      simp [Client.invoke]
  · refine iff_of_true ?_ fun isRedirect => absurd isRedirect redirects
    have final : nextRequest config.toClientConfig st.request
        (toHttpResponse st.request.method response) = none := by
      rw [nextRequest, if_neg]
      exact fun all => redirects ⟨all.2.1, all.2.2⟩
    rw [onResponse_final _ _ _ _ fun _ => final]
    intro call out member
    rw [Client.invoke, afterResponse_invocations, List.mem_append, List.mem_singleton,
      Prod.mk.injEq, Except.ok.injEq] at member
    rcases member with earlier | ⟨_, rfl⟩
    · exact noneBefore call out earlier
    · exact redirects

theorem withinLimit_iff_noRedirectDelivered (follows : config.followRedirects = true)
    (noneBefore : NoRedirectDelivered client) {event : Event}
    (stepped : step beast config client event = some next) :
    WithinLimit config client event ↔ NoRedirectDelivered next := by
  cases event with
  | call request =>
      obtain ⟨_, rfl⟩ := step_call_eq_some_iff.mp stepped
      refine iff_of_true trivial ?_
      rw [onCall, NoRedirectDelivered, startRequest_invocations]
      exact noneBefore
  | completion st completion =>
      obtain ⟨_, rfl⟩ := step_completion_eq_some_iff.mp stepped
      by_cases isResponse : ∃ received, completion = .read (.ok received)
      · obtain ⟨⟨response, readBuffer⟩, rfl⟩ := isResponse
        have finished : NoRedirectDelivered
            { client with
              outstanding := client.outstanding.erase { operation := .read, st } } := noneBefore
        exact (onResponse_noRedirectDelivered_iff follows finished st response readBuffer).symm
      · rw [not_exists] at isResponse
        refine iff_of_true ?_ ?_
        · rw [WithinLimit.eq_def]
          split
          next response readBuffer shape =>
            cases shape
            exact absurd rfl (isResponse _)
          next => trivial
        · refine (FailsAtMost.noRedirectDelivered_iff ?_).mpr noneBefore
          exact callback_failsAtMost config _ st isResponse

/-- Within the limit there is nothing to report. -/
theorem WithinLimit.reportsTooMany {event : Event} (within : WithinLimit config client event) :
    ReportsTooMany beast config client event := by
  rintro st response readBuffer rfl out redirects _ exhausted
  exact absurd (within redirects) (Nat.not_lt_of_le exhausted)

end Steps

/-- While redirects are followed, whatever the server, the errors and the
order of the completions: no handler is ever given a redirect, and every
redirect too many is reported, exactly when no redirect arrives after
`maxRedirects` have been followed. -/
theorem redirects_reported_iff {beast : Beast} {config : Config}
    (follows : config.followRedirects = true) (events : List Event) :
    (EveryState (step beast config) NoRedirectDelivered {} events ∧
        EveryStep (step beast config) (ReportsTooMany beast config) {} events) ↔
      EveryStep (step beast config) (WithinLimit config) {} events := by
  have decides : ∀ {client next : Client} {event : Event}, NoRedirectDelivered client →
      step beast config client event = some next →
        (WithinLimit config client event ↔ NoRedirectDelivered next) :=
    fun noneBefore stepped => withinLimit_iff_noRedirectDelivered follows noneBefore stepped
  have delivered : EveryState (step beast config) NoRedirectDelivered {} events ↔
      EveryStep (step beast config) (WithinLimit config) {} events := by
    refine everyState_iff_everyStep decides ?_ events (by exact nofun) (by exact nofun)
    exact fun noneBefore stepped within => (decides noneBefore stepped).mp within
  rw [delivered]
  refine and_iff_left_of_imp fun within => ?_
  exact within.imp fun _ => WithinLimit.reportsTooMany

/-! A server that redirects every request, against the default limit of five. -/

def loopConfig : Config where
  host := [104]
  https := false

def loopRedirect : WireResponse where
  status := 302
  reason := []
  body := []
  fields := [(ascii "Location", [97])]
  keepAlive := true
  delimitedByClose := false

/-- The state of the request that follows so many redirects. -/
def loopState (hop : Nat) : RequestState :=
  let target := if hop = 0 then [47] else [47, 97]
  { newState .simple loopConfig (get target []) hop 0 with conn := some 0 }

def loopHop (hop : Nat) : List Event :=
  [.completion (loopState hop) (.write false),
    .completion (loopState hop) (.read (.ok (loopRedirect, [])))]

/-- A call, its connection and so many redirects. -/
def loopEvents (hops : Nat) : List Event :=
  [.call (get [47] []), .completion { loopState 0 with conn := none } (.resolve false true true),
    .completion { loopState 0 with conn := none } (.connect false)] ++
      (List.range hops).flatMap loopHop

theorem loopEvents_withinLimit :
    ∀ event ∈ loopEvents 5, ∀ client, WithinLimit loopConfig client event := by
  intro event member client
  simp only [loopEvents, loopHop, List.mem_append, List.mem_cons, List.not_mem_nil, or_false,
    List.mem_flatMap, List.mem_range] at member
  rcases member with (rfl | rfl | rfl) | ⟨hop, hopLt, rfl | rfl⟩
  · trivial
  · trivial
  · trivial
  · trivial
  · exact fun _ => hopLt

theorem five_redirects_reported :
    EveryState (step .simple loopConfig) NoRedirectDelivered {} (loopEvents 5) ∧
      EveryStep (step .simple loopConfig) (ReportsTooMany .simple loopConfig) {} (loopEvents 5) :=
  (redirects_reported_iff rfl (loopEvents 5)).mpr
    (EveryStep.of_forall loopEvents_withinLimit {})

/-- The sixth redirect is handed out as a success. -/
theorem sixth_redirect_delivered :
    ∃ client, runFrom (step .simple loopConfig) {} (loopEvents 6) = some client ∧
      client.sent.length = loopConfig.maxRedirects + 1 ∧
        client.invocations = [(0, .ok (toHttpResponse .get loopRedirect))] ∧
          ¬ NoRedirectDelivered client := by
  have completes : (runFrom (step .simple loopConfig) {} (loopEvents 6)).map
      (fun client => (client.sent.length, client.invocations)) =
        some (6, [(0, .ok (toHttpResponse .get loopRedirect))]) := by
    decide +kernel
  obtain ⟨client, run, ended⟩ := Option.map_eq_some_iff.mp completes
  obtain ⟨sentEq, invocationsEq⟩ := Prod.mk.inj ended
  refine ⟨client, run, sentEq, invocationsEq, fun noneDelivered => ?_⟩
  refine noneDelivered 0 (toHttpResponse .get loopRedirect) ?_ ⟨by decide, by decide⟩
  rw [invocationsEq]
  exact List.mem_singleton_self _

end RestClientAsync

end ExchangeConnectivity
