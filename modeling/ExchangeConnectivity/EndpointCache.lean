import ExchangeConnectivity.ExpiringCaches
import ExchangeConnectivity.RestClient

/-!
# The endpoints of the synchronous REST client

`ensureEndpointsFresh` of `rest_client_2/rest_client.cpp`: every message is sent
to endpoints that are resolved again when they are older than `dnsTtl`.
-/

namespace ExchangeConnectivity

open ActionRuns ByteStrings ExpiringCaches HttpExchange

namespace RestClient

variable {Endpoint : Type}

/-- A client with its `endpoints` and the time at which they were resolved;
times and `dnsTtl` are in ticks of the steady clock. -/
structure Client (Endpoint : Type) where
  config : ClientConfig
  dnsTtl : Int
  endpoints : List Endpoint := []
  endpointsResolvedAt : Int := 0

/-- What `ensureEndpointsFresh` meets: the time, and the answer of the resolver
for a host and a port or the text of its exception. -/
structure Lookup (Endpoint : Type) where
  now : Int
  resolve : Bytes → Bytes → Except Bytes (List Endpoint)

def Client.Expired (client : Client Endpoint) (now : Int) : Prop :=
  client.endpoints = [] ∨ client.dnsTtl < now - client.endpointsResolvedAt

instance decidableExpired (client : Client Endpoint) (now : Int) :
    Decidable (client.Expired now) :=
  match client with
  | { endpoints := [], .. } => .isTrue (.inl rfl)
  | { endpoints := _ :: _, dnsTtl, endpointsResolvedAt, .. } =>
      decidable_of_iff (dnsTtl < now - endpointsResolvedAt)
        ⟨.inr, fun expired => expired.resolve_left (by simp)⟩

def ensureEndpointsFresh (client : Client Endpoint) (lookup : Lookup Endpoint) :
    Except Bytes (Client Endpoint) :=
  if ¬ client.Expired lookup.now then .ok client
  else
    match lookup.resolve client.config.host client.config.effectivePort with
    | .error what => .error what
    | .ok endpoints => .ok { client with endpoints, endpointsResolvedAt := lookup.now }

/-- The constructor, which resolves at once. -/
def construct (config : ClientConfig) (dnsTtl : Int) (lookup : Lookup Endpoint) :
    Except Bytes (Client Endpoint) :=
  if config.host = [] then .error (ascii "RestClient: host is empty")
  else ensureEndpointsFresh { config, dnsTtl } lookup

/-- A client with the last time it has read from the clock; `resolutions` logs
what the resolver has answered and `connects` the endpoints connected to, each
with the time that `ensureEndpointsFresh` has read for it. -/
structure State (Endpoint : Type) where
  client : Client Endpoint
  clock : Int
  resolutions : List (Int × List Endpoint)
  connects : List (Int × List Endpoint) := []

/-- The client as the constructor leaves it. -/
def newState (client : Client Endpoint) (now : Int) : State Endpoint :=
  { client, clock := now, resolutions := [(now, client.endpoints)] }

/-- What `execute` does before it sends a message.  The one reading of the clock
is that of `ensureEndpointsFresh`; the time the lookup and the connect take after
it is not told.  The steady clock does not go back, and the exception of the
resolver leaves `execute`. -/
def prepare (state : State Endpoint) (lookup : Lookup Endpoint) : Option (State Endpoint) :=
  if lookup.now < state.clock then none
  else
    match ensureEndpointsFresh state.client lookup with
    | .error _ => some { state with clock := lookup.now }
    | .ok client =>
        some
          { client
            clock := lookup.now
            resolutions :=
              if state.client.Expired lookup.now then
                state.resolutions ++ [(lookup.now, client.endpoints)]
              else state.resolutions
            connects := state.connects ++ [(lookup.now, client.endpoints)] }

/-- Endpoints there are. -/
def Usable (endpoints : List Endpoint) : Prop :=
  endpoints ≠ []

instance decidableUsable (endpoints : List Endpoint) : Decidable (Usable endpoints) :=
  match endpoints with
  | [] => .isFalse fun usable => usable rfl
  | _ :: _ => .isTrue (by simp [Usable])

def State.view (state : State Endpoint) : ExpiringCaches.State (List Endpoint) where
  cache := { value := state.client.endpoints, loadedAt := state.client.endpointsResolvedAt }
  clock := state.clock
  loads := state.resolutions
  uses := state.connects

theorem serves_iff_not_expired (client : Client Endpoint) (now : Int) :
    Serves Usable client.dnsTtl now
        { value := client.endpoints, loadedAt := client.endpointsResolvedAt } ↔
      ¬ client.Expired now := by
  rw [Serves, Client.Expired, not_or, not_lt]
  rfl

/-- The client looks up what the cache loads. -/
def loading (config : ClientConfig) (lookup : Lookup Endpoint) :
    ExpiringCaches.Request (List Endpoint) Bytes where
  now := lookup.now
  loaded := lookup.resolve config.host config.effectivePort

theorem prepare_view {state next : State Endpoint} {lookup : Lookup Endpoint}
    (prepared : prepare state lookup = some next) :
    step Usable state.client.dnsTtl state.view (loading state.client.config lookup) =
        some next.view ∧
      next.client.config = state.client.config ∧ next.client.dnsTtl = state.client.dnsTtl := by
  rw [prepare] at prepared
  split at prepared
  · cases prepared
  next notBack =>
    have forward : ¬ (loading state.client.config lookup).now < state.view.clock := notBack
    rw [step, if_neg forward]
    by_cases expired : state.client.Expired lookup.now
    · have reloads : ¬ Serves Usable state.client.dnsTtl
          (loading state.client.config lookup).now state.view.cache :=
        fun serves => (serves_iff_not_expired _ _).mp serves expired
      rw [if_neg reloads]
      rw [ensureEndpointsFresh, if_neg (not_not.mpr expired)] at prepared
      cases resolved : lookup.resolve state.client.config.host
          state.client.config.effectivePort with
      | error what =>
          simp only [resolved] at prepared
          cases prepared
          have answer : (loading state.client.config lookup).loaded = .error what := resolved
          rw [answer]
          exact ⟨rfl, rfl, rfl⟩
      | ok endpoints =>
          simp only [resolved, if_pos expired] at prepared
          cases prepared
          have answer : (loading state.client.config lookup).loaded = .ok endpoints := resolved
          rw [answer]
          exact ⟨rfl, rfl, rfl⟩
    · have serves : Serves Usable state.client.dnsTtl
          (loading state.client.config lookup).now state.view.cache :=
        (serves_iff_not_expired _ _).mpr expired
      rw [if_pos serves]
      rw [ensureEndpointsFresh, if_pos expired] at prepared
      simp only [if_neg expired] at prepared
      cases prepared
      exact ⟨rfl, rfl, rfl⟩

theorem run_view {start state : State Endpoint} {lookups : List (Lookup Endpoint)}
    (run : runFrom prepare start lookups = some state) :
    runFrom (step Usable start.client.dnsTtl) start.view
      (lookups.map (loading start.client.config)) = some state.view := by
  induction lookups generalizing start with
  | nil =>
      rw [runFrom_nil, Option.some_inj] at run
      rw [run]
      rfl
  | cons lookup lookups ih =>
      obtain ⟨next, prepared, rest⟩ := runFrom_cons_eq_some_iff.mp run
      obtain ⟨stepped, sameConfig, sameTtl⟩ := prepare_view prepared
      have later := ih rest
      rw [sameConfig, sameTtl] at later
      exact runFrom_cons_eq_some_iff.mpr ⟨next.view, stepped, later⟩

/-- Whatever the resolver answers and however the messages follow each other,
each connect is to the endpoints of the last successful lookup by the time
`ensureEndpointsFresh` has read for it, when that lookup was at most `dnsTtl`
old; lookups are further apart than `dnsTtl` unless the one before found
nothing, so that they are as few as fit into the time. -/
theorem endpoints_fresh {config : ClientConfig} {dnsTtl : Int} {first : Lookup Endpoint}
    {client : Client Endpoint} (made : construct config dnsTtl first = .ok client)
    {lookups : List (Lookup Endpoint)} {state : State Endpoint}
    (run : runFrom prepare (newState client first.now) lookups = some state) :
    (∀ use ∈ state.connects, UsesLast dnsTtl state.resolutions use) ∧
      state.resolutions.Pairwise (Apart Usable dnsTtl) ∧
      ((∀ resolution ∈ state.resolutions, Usable resolution.2) →
        ((state.resolutions.length : Int) - 1) * (dnsTtl + 1) ≤ state.clock - first.now) := by
  have initial : client.dnsTtl = dnsTtl ∧ client.endpointsResolvedAt = first.now := by
    rw [construct] at made
    split at made
    · cases made
    · rw [ensureEndpointsFresh, if_neg (not_not.mpr (.inl rfl))] at made
      split at made
      · cases made
      · cases made
        exact ⟨rfl, rfl⟩
  obtain ⟨rfl, resolvedAt⟩ := initial
  have follows := run_view run
  have starts : (newState client first.now).view = loaded client.endpoints first.now := by
    rw [State.view, newState, loaded, resolvedAt]
  rw [starts] at follows
  have fresh := run_fresh follows
  exact ⟨fresh.uses_last, fresh.apart, run_loads_le follows⟩

/-- A lookup that fails when the endpoints have expired, and one that succeeds
later: the connect in between is not made. -/
theorem endpoints_fresh_failed_lookup :
    ∃ config first client lookups, ∃ state : State Nat,
      construct config 60 first = .ok client ∧
        runFrom prepare (newState client first.now) lookups = some state ∧
          state.connects = [(60, [1]), (90, [2])] ∧
            ∀ use ∈ state.connects, UsesLast 60 state.resolutions use := by
  let config : ClientConfig := { host := ascii "api.binance.com", userAgent := ascii "agent" }
  let first : Lookup Nat := { now := 0, resolve := fun _ _ => .ok [1] }
  let client : Client Nat := { config, dnsTtl := 60, endpoints := [1] }
  have made : construct config 60 first = .ok client := rfl
  have run : runFrom prepare (newState client first.now)
      [{ now := 60, resolve := fun _ _ => .ok [3] },
        { now := 70, resolve := fun _ _ => .error (ascii "Host not found") },
        { now := 90, resolve := fun _ _ => .ok [2] }] = some _ := rfl
  exact ⟨config, first, client, _, _, made, run, rfl, (endpoints_fresh made run).1⟩

end RestClient

end ExchangeConnectivity
