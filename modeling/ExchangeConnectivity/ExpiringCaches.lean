import ExchangeConnectivity.ActionRuns
import Mathlib.Algebra.Order.Ring.Int
import Mathlib.Data.List.Basic

/-!
# Values that are loaded again when they have expired

A value is kept for a time to live and loaded again when it is asked for later
than that.  The clock never goes back, and a load may fail, which leaves the
value as it is.  This file bounds the age of what is used and the number of
loads.
-/

namespace ExpiringCaches

open ActionRuns

variable {Value Failure : Type*}

structure Cache (Value : Type*) where
  value : Value
  loadedAt : Int

/-- A request for the value: the time, and what a load would yield. -/
structure Request (Value Failure : Type*) where
  now : Int
  loaded : Except Failure Value

/-- The cached value serves until it is older than `ttl`, unless it is of no
use at all. -/
def Serves (usable : Value → Prop) (ttl now : Int) (cache : Cache Value) : Prop :=
  usable cache.value ∧ now - cache.loadedAt ≤ ttl

instance decidableServes (usable : Value → Prop) [DecidablePred usable] (ttl now : Int)
    (cache : Cache Value) : Decidable (Serves usable ttl now cache) :=
  inferInstanceAs (Decidable (_ ∧ _))

/-- The cache with the last time read from the clock, the successful loads and
the values handed out, each with its time. -/
structure State (Value : Type*) where
  cache : Cache Value
  clock : Int
  loads : List (Int × Value)
  uses : List (Int × Value)

/-- The cache just after its first load. -/
def loaded (value : Value) (now : Int) : State Value where
  cache := { value, loadedAt := now }
  clock := now
  loads := [(now, value)]
  uses := []

def step (usable : Value → Prop) [DecidablePred usable] (ttl : Int) (state : State Value)
    (request : Request Value Failure) : Option (State Value) :=
  if request.now < state.clock then none
  else if Serves usable ttl request.now state.cache then
    some
      { state with
        clock := request.now
        uses := state.uses ++ [(request.now, state.cache.value)] }
  else
    match request.loaded with
    | .error _ => some { state with clock := request.now }
    | .ok value =>
        some
          { cache := { value, loadedAt := request.now }
            clock := request.now
            loads := state.loads ++ [(request.now, value)]
            uses := state.uses ++ [(request.now, value)] }

/-- What is used is the last value loaded by then, and has not expired. -/
def UsesLast (ttl : Int) (loads : List (Int × Value)) (use : Int × Value) : Prop :=
  ∃ load ∈ loads, load.2 = use.2 ∧ load.1 ≤ use.1 ∧ use.1 - load.1 ≤ max ttl 0 ∧
    ∀ other ∈ loads, other.1 ≤ load.1 ∨ use.1 ≤ other.1

/-- Two loads are further apart than the time to live, unless the first was of
no use. -/
def Apart (usable : Value → Prop) (ttl : Int) (earlier later : Int × Value) : Prop :=
  usable earlier.2 → ttl < later.1 - earlier.1

structure Fresh (usable : Value → Prop) (ttl : Int) (state : State Value) : Prop where
  cached : ∃ before, state.loads = before ++ [(state.cache.loadedAt, state.cache.value)]
  latest : ∀ load ∈ state.loads, load.1 ≤ state.cache.loadedAt
  loaded_before : state.cache.loadedAt ≤ state.clock
  used_before : ∀ use ∈ state.uses, use.1 ≤ state.clock
  uses_last : ∀ use ∈ state.uses, UsesLast ttl state.loads use
  apart : state.loads.Pairwise (Apart usable ttl)

variable {usable : Value → Prop} {ttl : Int} {state next : State Value}

theorem fresh_loaded (value : Value) (now : Int) : Fresh usable ttl (loaded value now) where
  cached := ⟨[], rfl⟩
  latest := by
    intro load member
    obtain rfl := List.mem_singleton.mp member
    exact le_refl now
  loaded_before := le_refl now
  used_before := fun _ member => absurd member List.not_mem_nil
  uses_last := fun _ member => absurd member List.not_mem_nil
  apart := List.pairwise_singleton _ _

theorem UsesLast.append {loads : List (Int × Value)} {use later : Int × Value}
    (usesLast : UsesLast ttl loads use) (after : use.1 ≤ later.1) :
    UsesLast ttl (loads ++ [later]) use := by
  obtain ⟨load, member, same, before, young, last⟩ := usesLast
  refine ⟨load, List.mem_append_left _ member, same, before, young, fun other among => ?_⟩
  rw [List.mem_append, List.mem_singleton] at among
  rcases among with among | rfl
  · exact last other among
  · exact .inr after

/-- The clock has moved on. -/
theorem Fresh.wait (fresh : Fresh usable ttl state) {now : Int} (later : state.clock ≤ now) :
    Fresh usable ttl { state with clock := now } where
  cached := fresh.cached
  latest := fresh.latest
  loaded_before := fresh.loaded_before.trans later
  used_before := fun use member => (fresh.used_before use member).trans later
  uses_last := fresh.uses_last
  apart := fresh.apart

theorem Fresh.use (fresh : Fresh usable ttl state) {now : Int} (later : state.clock ≤ now)
    (young : now - state.cache.loadedAt ≤ ttl) :
    Fresh usable ttl
      { state with clock := now, uses := state.uses ++ [(now, state.cache.value)] } := by
  have waited := fresh.wait later
  obtain ⟨before, loadsEq⟩ := fresh.cached
  refine ⟨waited.cached, waited.latest, waited.loaded_before, ?_, ?_, waited.apart⟩
  · intro use member
    rw [List.mem_append, List.mem_singleton] at member
    rcases member with member | rfl
    · exact waited.used_before use member
    · exact le_refl now
  · intro use member
    rw [List.mem_append, List.mem_singleton] at member
    rcases member with member | rfl
    · exact fresh.uses_last use member
    · refine ⟨(state.cache.loadedAt, state.cache.value), ?_, rfl, ?_, ?_, ?_⟩
      · rw [loadsEq]
        exact List.mem_append_right _ (List.mem_singleton_self _)
      · exact fresh.loaded_before.trans later
      · exact young.trans (le_max_left ttl 0)
      · exact fun other among => .inl (fresh.latest other among)

/-- A load that succeeds when the cached value no longer serves. -/
theorem Fresh.load (fresh : Fresh usable ttl state) {now : Int} (later : state.clock ≤ now)
    (expired : ¬ Serves usable ttl now state.cache) (value : Value) :
    Fresh usable ttl
      { cache := { value, loadedAt := now }
        clock := now
        loads := state.loads ++ [(now, value)]
        uses := state.uses ++ [(now, value)] } := by
  have afterLast : state.cache.loadedAt ≤ now := fresh.loaded_before.trans later
  have isLatest : ∀ load ∈ state.loads ++ [(now, value)], load.1 ≤ now := by
    intro load member
    rw [List.mem_append, List.mem_singleton] at member
    rcases member with member | rfl
    · exact (fresh.latest load member).trans afterLast
    · exact le_refl now
  refine ⟨⟨state.loads, rfl⟩, isLatest, le_refl now, ?_, ?_, ?_⟩
  · intro use member
    rw [List.mem_append, List.mem_singleton] at member
    rcases member with member | rfl
    · exact (fresh.used_before use member).trans later
    · exact le_refl now
  · intro use member
    rw [List.mem_append, List.mem_singleton] at member
    rcases member with member | rfl
    · exact (fresh.uses_last use member).append ((fresh.used_before use member).trans later)
    · refine ⟨(now, value), ?_, rfl, le_refl now, ?_, ?_⟩
      · exact List.mem_append_right _ (List.mem_singleton_self _)
      · simp
      · exact fun other among => .inl (isLatest other among)
  · obtain ⟨before, loadsEq⟩ := fresh.cached
    refine List.pairwise_append.mpr ⟨fresh.apart, List.pairwise_singleton _ _, ?_⟩
    intro earlier member last among isUsable
    obtain rfl := List.mem_singleton.mp among
    have ordered := fresh.apart
    rw [loadsEq, List.pairwise_append] at ordered
    rw [loadsEq, List.mem_append, List.mem_singleton] at member
    rcases member with member | rfl
    · have gap := ordered.2.2 earlier member _ (List.mem_singleton_self _) isUsable
      dsimp only at gap ⊢
      omega
    · by_contra within
      exact expired ⟨isUsable, not_lt.mp within⟩

/-- Times that are more than `ttl` apart. -/
theorem length_mul_le_of_apart {first last : Int × Value} {between : List (Int × Value)}
    (usableAll : ∀ load ∈ first :: between, usable load.2)
    (apart : (first :: between ++ [last]).Pairwise (Apart usable ttl)) :
    ((between.length : Int) + 1) * (ttl + 1) ≤ last.1 - first.1 := by
  induction between generalizing first with
  | nil =>
      have gap := List.rel_of_pairwise_cons apart (List.mem_singleton_self last)
        (usableAll first List.mem_cons_self)
      simp only [List.length_nil]
      omega
  | cons second between ih =>
      have gap := List.rel_of_pairwise_cons apart List.mem_cons_self
        (usableAll first List.mem_cons_self)
      have later := ih (fun load member => usableAll load (List.mem_cons_of_mem _ member))
        apart.of_cons
      rw [List.length_cons, Nat.cast_succ, add_mul, one_mul]
      omega

variable [DecidablePred usable]

theorem step_fresh {request : Request Value Failure} (fresh : Fresh usable ttl state)
    (stepped : step usable ttl state request = some next) : Fresh usable ttl next := by
  rw [step] at stepped
  split at stepped
  · cases stepped
  next notBack =>
    have later : state.clock ≤ request.now := not_lt.mp notBack
    split at stepped
    next serves =>
      cases stepped
      exact fresh.use later serves.2
    next expired =>
      cases loading : request.loaded with
      | error failure =>
          rw [loading] at stepped
          cases stepped
          exact fresh.wait later
      | ok value =>
          rw [loading] at stepped
          cases stepped
          exact fresh.load later expired value

theorem run_fresh {value : Value} {start : Int} {requests : List (Request Value Failure)}
    (run : runFrom (step usable ttl) (loaded value start) requests = some state) :
    Fresh usable ttl state :=
  invariant_of_run step_fresh run (fresh_loaded value start)

theorem step_loads {request : Request Value Failure}
    (stepped : step usable ttl state request = some next) : state.loads <+: next.loads := by
  rw [step] at stepped
  split at stepped
  · cases stepped
  · split at stepped
    · cases stepped
      exact List.prefix_rfl
    · cases loading : request.loaded with
      | error failure =>
          rw [loading] at stepped
          cases stepped
          exact List.prefix_rfl
      | ok value =>
          rw [loading] at stepped
          cases stepped
          exact List.prefix_append _ _

/-- As long as every load is of use, there are as many as fit at the time to
live into the time that has passed. -/
theorem run_loads_le {value : Value} {start : Int} {requests : List (Request Value Failure)}
    (run : runFrom (step usable ttl) (loaded value start) requests = some state)
    (usableAll : ∀ load ∈ state.loads, usable load.2) :
    ((state.loads.length : Int) - 1) * (ttl + 1) ≤ state.clock - start := by
  have fresh := run_fresh run
  have preserved : ∀ {state next : State Value} {request : Request Value Failure},
      [(start, value)] <+: state.loads → step usable ttl state request = some next →
        [(start, value)] <+: next.loads :=
    fun before stepped => before.trans (step_loads stepped)
  have starts := invariant_of_run preserved run List.prefix_rfl
  obtain ⟨before, loadsEq⟩ := fresh.cached
  rw [loadsEq] at starts usableAll
  cases before with
  | nil =>
      rw [List.nil_append, List.prefix_iff_eq_append] at starts
      have same : start = state.cache.loadedAt := by simpa using congrArg (·.map Prod.fst) starts
      have passed := fresh.loaded_before
      rw [loadsEq]
      simp only [List.nil_append, List.length_singleton]
      omega
  | cons first between =>
      obtain ⟨rest, whole⟩ := starts
      obtain rfl : (start, value) = first := by simpa using congrArg List.head? whole
      have apart := fresh.apart
      rw [loadsEq] at apart
      have gaps := length_mul_le_of_apart
        (fun load member => usableAll load (List.mem_append_left _ member)) apart
      have passed := fresh.loaded_before
      rw [loadsEq, List.length_append, List.length_cons, List.length_singleton]
      have count : ((between.length + 1 + 1 : Nat) : Int) - 1 = between.length + 1 := by omega
      rw [count]
      dsimp only at gaps
      omega

end ExpiringCaches
