import ExchangeConnectivity.ActionRuns
import Mathlib.Data.List.Induction

/-!
# Monitors

A resource under a lock with one condition variable.  A thread supplies the
resource and then wakes one waiting thread, ends the supply and then wakes all
of them, or looks at the resource and waits while it cannot be served; a
thread in the wait set may also wake for no reason.  This file defines the
runs of any number of such threads.  What they do under the lock is a
sequential history of the resource, and no thread is left waiting that could
be served.
-/

namespace Monitors

open ActionRuns

/-- Where a thread stands: outside, between a locked section and the call that
wakes one thread or all, in the wait set, or woken and about to look again. -/
inductive Place
  | outside
  | signalling
  | broadcasting
  | waiting
  | woken
  deriving DecidableEq

/-- What is done to the resource under the lock; `look` has no result while
the caller has to wait. -/
structure Monitor (Resource Input Result : Type*) where
  look : Resource → Option (Resource × Result)
  supply : Resource → Input → Resource
  finish : Resource → Resource

/-- What a locked section has done. -/
inductive Entry (Input Result : Type*)
  | supplied (input : Input)
  | finished
  | returned (thread : Nat) (result : Result)

/-- The threads, named by their position, with the history of the resource. -/
structure State (Resource Input Result : Type*) where
  resource : Resource
  places : List Place
  history : List (Entry Input Result) := []

/-- The section of a call, the thread that a call wakes, if there is one to be
woken, or a thread that wakes by itself. -/
inductive Action (Input : Type*)
  | supply (thread : Nat) (input : Input)
  | finish (thread : Nat)
  | look (thread : Nat)
  | signal (thread : Nat) (other : Option Nat)
  | broadcast (thread : Nat)
  | spurious (thread : Nat)

def Place.wake : Place → Place
  | .waiting => .woken
  | place => place

section Steps

variable {Resource Input Result : Type*} (monitor : Monitor Resource Input Result)

def State.move (state : State Resource Input Result) (thread : Nat) (place : Place) :
    State Resource Input Result :=
  { state with places := state.places.set thread place }

def State.log (state : State Resource Input Result) (entry : Entry Input Result) :
    State Resource Input Result :=
  { state with history := state.history ++ [entry] }

/-- One turn of the loop around the wait. -/
def lookAt (state : State Resource Input Result) (thread : Nat) : State Resource Input Result :=
  match monitor.look state.resource with
  | none => state.move thread .waiting
  | some (resource, result) =>
      (State.move { state with resource } thread .outside).log (.returned thread result)

def step (state : State Resource Input Result) :
    Action Input → Option (State Resource Input Result)
  | .supply thread input =>
      if state.places[thread]? = some .outside then
        let resource := monitor.supply state.resource input
        some ((State.move { state with resource } thread .signalling).log (.supplied input))
      else none
  | .finish thread =>
      if state.places[thread]? = some .outside then
        let resource := monitor.finish state.resource
        some ((State.move { state with resource } thread .broadcasting).log .finished)
      else none
  | .look thread =>
      if state.places[thread]? = some .outside ∨ state.places[thread]? = some .woken then
        some (lookAt monitor state thread)
      else none
  | .signal thread none =>
      if state.places[thread]? = some .signalling ∧ .waiting ∉ state.places then
        some (state.move thread .outside)
      else none
  | .signal thread (some other) =>
      if state.places[thread]? = some .signalling ∧ state.places[other]? = some .waiting then
        some ((state.move thread .outside).move other .woken)
      else none
  | .broadcast thread =>
      if state.places[thread]? = some .broadcasting then
        some { state with places := (state.places.set thread .outside).map Place.wake }
      else none
  | .spurious thread =>
      if state.places[thread]? = some .waiting then some (state.move thread .woken) else none

end Steps

section Counts

variable {places : List Place} {thread : Nat} {old new : Place}

theorem count_set_add (found : places[thread]? = some old) (new place : Place) :
    (places.set thread new).count place + (if old = place then 1 else 0) =
      places.count place + if new = place then 1 else 0 := by
  induction places generalizing thread with
  | nil => cases found
  | cons first rest ih =>
      cases thread with
      | zero =>
          cases found
          simp only [List.set_cons_zero, List.count_cons, beq_iff_eq]
          omega
      | succ thread =>
          have later := ih (List.getElem?_cons_succ ▸ found)
          simp only [List.set_cons_succ, List.count_cons, beq_iff_eq]
          omega

theorem count_set_old (found : places[thread]? = some old) (new : Place)
    (different : new ≠ old) :
    (places.set thread new).count old + 1 = places.count old := by
  simpa only [↓reduceIte, if_neg different, Nat.add_zero] using count_set_add found new old

theorem count_set_new (found : places[thread]? = some old) (new : Place)
    (different : old ≠ new) :
    (places.set thread new).count new = places.count new + 1 := by
  simpa only [↓reduceIte, if_neg different, Nat.add_zero] using count_set_add found new new

theorem count_set_other (found : places[thread]? = some old) (new place : Place)
    (notOld : old ≠ place) (notNew : new ≠ place) :
    (places.set thread new).count place = places.count place := by
  simpa only [if_neg notOld, if_neg notNew, Nat.add_zero] using count_set_add found new place

/-- A broadcast leaves no thread waiting. -/
theorem count_waiting_map_wake (places : List Place) :
    (places.map Place.wake).count .waiting = 0 := by
  rw [List.count_eq_zero]
  intro member
  obtain ⟨place, -, equal⟩ := List.mem_map.mp member
  cases place <;> cases equal

/-- A broadcast wakes the threads that were waiting. -/
theorem count_woken_map_wake (places : List Place) :
    (places.map Place.wake).count .woken = places.count .woken + places.count .waiting := by
  induction places with
  | nil => rfl
  | cons first rest ih =>
      cases first <;> simp [Place.wake] at ih ⊢ <;> omega

theorem count_map_wake (places : List Place) (notWaiting : new ≠ .waiting)
    (notWoken : new ≠ .woken) : (places.map Place.wake).count new = places.count new := by
  induction places with
  | nil => rfl
  | cons first rest ih =>
      cases first <;> simp [Place.wake, List.count_cons, ih, notWaiting.symm, notWoken.symm]

end Counts

section Runs

variable {Resource Input Result : Type*} {monitor : Monitor Resource Input Result}
  {state next : State Resource Input Result} {action : Action Input}

/-- The entries, one after the other, take the resource from the first of two
values to the second, and each returned result is the one of its look. -/
inductive Replays (monitor : Monitor Resource Input Result) (initial : Resource) :
    List (Entry Input Result) → Resource → Prop
  | nil : Replays monitor initial [] initial
  | supplied {history : List (Entry Input Result)} {resource : Resource}
      (before : Replays monitor initial history resource) (input : Input) :
      Replays monitor initial (history ++ [.supplied input]) (monitor.supply resource input)
  | finished {history : List (Entry Input Result)} {resource : Resource}
      (before : Replays monitor initial history resource) :
      Replays monitor initial (history ++ [.finished]) (monitor.finish resource)
  | returned {history : List (Entry Input Result)} {resource after : Resource} {result : Result}
      (before : Replays monitor initial history resource) (thread : Nat)
      (looked : monitor.look resource = some (after, result)) :
      Replays monitor initial (history ++ [.returned thread result]) after

theorem lookAt_replays {initial : Resource}
    (replays : Replays monitor initial state.history state.resource) (thread : Nat) :
    Replays monitor initial (lookAt monitor state thread).history
      (lookAt monitor state thread).resource := by
  rw [lookAt]
  split
  next => exact replays
  next resource result looked => exact .returned replays thread looked

/-- What is done under a guard was allowed by it. -/
theorem of_guard {State : Type*} {guard : Prop} [Decidable guard] {after next : State}
    (done : (if guard then some after else none) = some next) : guard ∧ after = next := by
  rwa [Option.ite_none_right_eq_some, Option.some_inj] at done

theorem step_replays {initial : Resource}
    (replays : Replays monitor initial state.history state.resource)
    (stepped : step monitor state action = some next) :
    Replays monitor initial next.history next.resource := by
  cases action with
  | supply thread input =>
      obtain ⟨-, rfl⟩ := of_guard stepped
      exact .supplied replays input
  | finish thread =>
      obtain ⟨-, rfl⟩ := of_guard stepped
      exact .finished replays
  | look thread =>
      obtain ⟨-, rfl⟩ := of_guard stepped
      exact lookAt_replays replays thread
  | signal thread other =>
      cases other with
      | none =>
          obtain ⟨-, rfl⟩ := of_guard stepped
          exact replays
      | some other =>
          obtain ⟨-, rfl⟩ := of_guard stepped
          exact replays
  | broadcast thread =>
      obtain ⟨-, rfl⟩ := of_guard stepped
      exact replays
  | spurious thread =>
      obtain ⟨-, rfl⟩ := of_guard stepped
      exact replays

theorem run_replays {start final : State Resource Input Result} {actions : List (Action Input)}
    (run : runFrom (step monitor) start actions = some final) (new : start.history = []) :
    Replays monitor start.resource final.history final.resource := by
  have initially : Replays monitor start.resource start.history start.resource := by
    rw [new]
    exact .nil
  exact invariant_of_run (fun replays stepped => step_replays replays stepped) run initially

section Prefixes

variable {initial final : Resource} {past rest : List (Entry Input Result)}

theorem Replays.exists_before {entry : Entry Input Result}
    (replays : Replays monitor initial (past ++ [entry]) final) :
    ∃ before, Replays monitor initial past before ∧
      ∀ thread result, entry = .returned thread result →
        monitor.look before = some (final, result) := by
  generalize extended : past ++ [entry] = history at replays
  cases replays with
  | nil => exact absurd extended (List.append_ne_nil_of_right_ne_nil _ (List.cons_ne_nil _ _))
  | supplied before input =>
      obtain ⟨rfl, last⟩ := List.append_inj' extended rfl
      cases last
      exact ⟨_, before, fun _ _ equal => by cases equal⟩
  | finished before =>
      obtain ⟨rfl, last⟩ := List.append_inj' extended rfl
      cases last
      exact ⟨_, before, fun _ _ equal => by cases equal⟩
  | returned before thread looked =>
      obtain ⟨rfl, last⟩ := List.append_inj' extended rfl
      cases last
      exact ⟨_, before, fun _ _ equal => by cases equal; exact looked⟩

theorem Replays.exists_prefix (replays : Replays monitor initial (past ++ rest) final) :
    ∃ middle, Replays monitor initial past middle := by
  induction rest using List.reverseRecOn generalizing final with
  | nil => exact ⟨final, by rwa [List.append_nil] at replays⟩
  | append_singleton rest entry ih =>
      rw [← List.append_assoc] at replays
      obtain ⟨before, earlier, -⟩ := replays.exists_before
      exact ih earlier

/-- A result in the history is that of a look after the entries before it. -/
theorem Replays.exists_look {thread : Nat} {result : Result}
    (replays : Replays monitor initial (past ++ .returned thread result :: rest) final) :
    ∃ before after, Replays monitor initial past before ∧
      monitor.look before = some (after, result) := by
  rw [List.append_cons] at replays
  obtain ⟨after, upTo⟩ := replays.exists_prefix
  obtain ⟨before, earlier, looked⟩ := upTo.exists_before
  exact ⟨before, after, earlier, looked thread result rfl⟩

end Prefixes

/-- How `stock` and `ended` describe the resource: a look has to wait when the
stock is empty and its supply has not ended, and takes from the stock
otherwise; a supply adds one at most. -/
structure Serves (monitor : Monitor Resource Input Result) (stock : Resource → Nat)
    (ended : Resource → Prop) : Prop where
  waits_iff : ∀ resource, monitor.look resource = none ↔ stock resource = 0 ∧ ¬ ended resource
  takes : ∀ {resource after result}, monitor.look resource = some (after, result) →
    (ended after ↔ ended resource) ∧ (¬ ended resource → stock after + 1 ≤ stock resource)
  adds : ∀ resource input, stock (monitor.supply resource input) ≤ stock resource + 1 ∧
    (ended (monitor.supply resource input) ↔ ended resource)
  ends : ∀ resource, ended (monitor.finish resource)

/-- As long as a thread waits, every element of the stock has a thread that is
woken or about to wake one, and after the end a broadcast is on its way. -/
structure Awake (stock : Resource → Nat) (ended : Resource → Prop)
    (state : State Resource Input Result) : Prop where
  served : 0 < state.places.count .waiting → ¬ ended state.resource →
    stock state.resource ≤ state.places.count .woken + state.places.count .signalling
  told : 0 < state.places.count .waiting → ended state.resource →
    0 < state.places.count .broadcasting

variable {stock : Resource → Nat} {ended : Resource → Prop}

theorem lookAt_awake (serves : Serves monitor stock ended) (awake : Awake stock ended state)
    {thread : Nat} {place : Place} (found : state.places[thread]? = some place)
    (looking : place = .outside ∨ place = .woken) :
    Awake stock ended (lookAt monitor state thread) := by
  rw [lookAt]
  split
  next waits =>
    obtain ⟨empty, continues⟩ := (serves.waits_iff state.resource).mp waits
    constructor
    case served =>
      intro _ _
      exact Nat.le_trans (Nat.le_of_eq empty) (Nat.zero_le _)
    case told => exact fun _ finished => absurd finished continues
  next resource result looked =>
    obtain ⟨same, fewer⟩ := serves.takes looked
    have waiting : (state.places.set thread .outside).count .waiting =
        state.places.count .waiting := by
      rcases looking with rfl | rfl <;> exact count_set_other found _ _ (by decide) (by decide)
    have signalling : (state.places.set thread .outside).count .signalling =
        state.places.count .signalling := by
      rcases looking with rfl | rfl <;> exact count_set_other found _ _ (by decide) (by decide)
    have broadcasting : (state.places.set thread .outside).count .broadcasting =
        state.places.count .broadcasting := by
      rcases looking with rfl | rfl <;> exact count_set_other found _ _ (by decide) (by decide)
    -- One thread fewer is woken, if any, and one element fewer is left.
    have woken : state.places.count .woken ≤
        (state.places.set thread .outside).count .woken + 1 := by
      rcases looking with rfl | rfl
      · exact Nat.le_succ_of_le
          (Nat.le_of_eq (count_set_other found .outside .woken (by decide) (by decide)).symm)
      · exact Nat.le_of_eq (count_set_old found .outside (by decide)).symm
    constructor
    case served =>
      intro anyone continues
      have continued : ¬ ended state.resource := fun finished => continues (same.mpr finished)
      have enough := awake.served (waiting ▸ anyone) continued
      have taken := fewer continued
      change stock resource ≤ (state.places.set thread .outside).count .woken +
        (state.places.set thread .outside).count .signalling
      omega
    case told =>
      intro anyone finished
      have coming := awake.told (waiting ▸ anyone) (same.mp finished)
      exact Nat.lt_of_lt_of_eq coming broadcasting.symm

/-- Where nobody waits, nobody is left waiting. -/
theorem Awake.of_nobody (nobody : state.places.count .waiting = 0) : Awake stock ended state where
  served anyone := absurd nobody (Nat.ne_of_gt anyone)
  told anyone := absurd nobody (Nat.ne_of_gt anyone)

/-- Whoever supplies an element is about to wake a thread for it. -/
theorem Awake.supply (serves : Serves monitor stock ended) (awake : Awake stock ended state)
    {thread : Nat} (found : state.places[thread]? = some .outside) (input : Input) :
    Awake stock ended ((State.move { state with resource := monitor.supply state.resource input }
      thread .signalling).log (.supplied input)) := by
  obtain ⟨more, same⟩ := serves.adds state.resource input
  have waiting := count_set_other found .signalling .waiting (by decide) (by decide)
  constructor
  case served =>
    intro anyone continues
    have enough := awake.served (waiting ▸ anyone) fun finished => continues (same.mpr finished)
    change stock (monitor.supply state.resource input) ≤
      (state.places.set thread .signalling).count .woken +
        (state.places.set thread .signalling).count .signalling
    rw [count_set_other found _ .woken (by decide) (by decide),
      count_set_new found _ (by decide)]
    omega
  case told =>
    intro anyone finished
    have coming := awake.told (waiting ▸ anyone) (same.mp finished)
    exact Nat.lt_of_lt_of_eq coming (count_set_other found _ _ (by decide) (by decide)).symm

theorem Awake.finish (serves : Serves monitor stock ended) {thread : Nat}
    (found : state.places[thread]? = some .outside) :
    Awake stock ended ((State.move { state with resource := monitor.finish state.resource }
      thread .broadcasting).log .finished) where
  served := fun _ continues => absurd (serves.ends state.resource) continues
  told := fun _ _ =>
    Nat.lt_of_lt_of_eq (Nat.zero_lt_succ _) (count_set_new found .broadcasting (by decide)).symm

/-- The signal that is gone is a thread woken. -/
theorem Awake.signal (awake : Awake stock ended state) {thread other : Nat}
    (found : state.places[thread]? = some .signalling)
    (waits : state.places[other]? = some .waiting) :
    Awake stock ended ((state.move thread .outside).move other .woken) := by
  have different : thread ≠ other := by
    rintro rfl
    rw [found] at waits
    cases waits
  have anyone := List.count_pos_iff.mpr (List.mem_of_getElem? waits)
  have stillWaits : (state.places.set thread .outside)[other]? = some .waiting := by
    rwa [List.getElem?_set_ne different]
  constructor
  case served =>
    intro _ continues
    have enough := awake.served anyone continues
    change stock state.resource ≤
      ((state.places.set thread .outside).set other .woken).count .woken +
        ((state.places.set thread .outside).set other .woken).count .signalling
    have gone := count_set_old found .outside (by decide)
    rw [count_set_new stillWaits _ (by decide),
      count_set_other found _ .woken (by decide) (by decide),
      count_set_other stillWaits _ .signalling (by decide) (by decide)]
    omega
  case told =>
    intro _ finished
    have coming := awake.told anyone finished
    change 0 < ((state.places.set thread .outside).set other .woken).count .broadcasting
    rwa [count_set_other stillWaits _ _ (by decide) (by decide),
      count_set_other found _ _ (by decide) (by decide)]

theorem Awake.spurious (awake : Awake stock ended state) {thread : Nat}
    (found : state.places[thread]? = some .waiting) :
    Awake stock ended (state.move thread .woken) := by
  have anyone := List.count_pos_iff.mpr (List.mem_of_getElem? found)
  constructor
  case served =>
    intro _ continues
    have enough := awake.served anyone continues
    change stock state.resource ≤ (state.places.set thread .woken).count .woken +
      (state.places.set thread .woken).count .signalling
    rw [count_set_new found _ (by decide),
      count_set_other found _ .signalling (by decide) (by decide)]
    omega
  case told =>
    intro _ finished
    have coming := awake.told anyone finished
    exact Nat.lt_of_lt_of_eq coming (count_set_other found _ _ (by decide) (by decide)).symm

theorem step_awake (serves : Serves monitor stock ended) (awake : Awake stock ended state)
    (stepped : step monitor state action = some next) : Awake stock ended next := by
  cases action with
  | supply thread input =>
      obtain ⟨found, rfl⟩ := of_guard stepped
      exact awake.supply serves found input
  | finish thread =>
      obtain ⟨found, rfl⟩ := of_guard stepped
      exact Awake.finish serves found
  | look thread =>
      obtain ⟨found, rfl⟩ := of_guard stepped
      rcases found with found | found
      · exact lookAt_awake serves awake found (.inl rfl)
      · exact lookAt_awake serves awake found (.inr rfl)
  | signal thread other =>
      cases other with
      | none =>
          obtain ⟨⟨found, nobody⟩, rfl⟩ := of_guard stepped
          have waiting : (state.places.set thread .outside).count .waiting = 0 := by
            rw [count_set_other found _ _ (by decide) (by decide)]
            exact List.count_eq_zero.mpr nobody
          exact .of_nobody waiting
      | some other =>
          obtain ⟨⟨found, waits⟩, rfl⟩ := of_guard stepped
          exact awake.signal found waits
  | broadcast thread =>
      obtain ⟨found, rfl⟩ := of_guard stepped
      exact .of_nobody (count_waiting_map_wake (state.places.set thread .outside))
  | spurious thread =>
      obtain ⟨found, rfl⟩ := of_guard stepped
      exact awake.spurious found

theorem run_awake (serves : Serves monitor stock ended)
    {start final : State Resource Input Result} {actions : List (Action Input)}
    (run : runFrom (step monitor) start actions = some final)
    (nobody : .waiting ∉ start.places) : Awake stock ended final := by
  refine invariant_of_run (fun awake stepped => step_awake serves awake stepped) run ?_
  exact .of_nobody (List.count_eq_zero.mpr nobody)

/-- Nobody is between a locked section and its call, or woken. -/
def Quiet (places : List Place) : Prop :=
  ∀ place ∈ places, place = .outside ∨ place = .waiting

/-- In a quiet state a thread that waits would wait again. -/
theorem Awake.look_eq_none (serves : Serves monitor stock ended) (awake : Awake stock ended state)
    (quiet : Quiet state.places) (anyone : .waiting ∈ state.places) :
    monitor.look state.resource = none := by
  have absent : ∀ place, place ≠ .outside → place ≠ .waiting → state.places.count place = 0 := by
    intro place notOutside notWaiting
    rw [List.count_eq_zero]
    intro member
    exact (quiet place member).elim notOutside notWaiting
  have waits := List.count_pos_iff.mpr anyone
  rw [serves.waits_iff]
  have continues : ¬ ended state.resource := by
    intro finished
    have coming := awake.told waits finished
    rw [absent .broadcasting (by decide) (by decide)] at coming
    exact absurd coming (Nat.lt_irrefl 0)
  refine ⟨Nat.le_zero.mp ?_, continues⟩
  have enough := awake.served waits continues
  rwa [absent .woken (by decide) (by decide), absent .signalling (by decide) (by decide)] at enough

/-- The steps of calls that are under way, without new calls and without
threads that wake by themselves. -/
def settle (monitor : Monitor Resource Input Result) (state : State Resource Input Result) :
    Action Input → Option (State Resource Input Result)
  | .look thread =>
      if state.places[thread]? = some .woken then some (lookAt monitor state thread) else none
  | .signal thread other => step monitor state (.signal thread other)
  | .broadcast thread => step monitor state (.broadcast thread)
  | _ => none

theorem settle_awake (serves : Serves monitor stock ended) (awake : Awake stock ended state)
    (settled : settle monitor state action = some next) : Awake stock ended next := by
  cases action with
  | supply thread input => cases settled
  | finish thread => cases settled
  | look thread =>
      obtain ⟨found, rfl⟩ := of_guard settled
      exact lookAt_awake serves awake found (.inr rfl)
  | signal thread other =>
      have stepped : step monitor state (.signal thread other) = some next := settled
      exact step_awake serves awake stepped
  | broadcast thread =>
      have stepped : step monitor state (.broadcast thread) = some next := settled
      exact step_awake serves awake stepped
  | spurious thread => cases settled

/-- A bound on the steps of the calls that are under way. -/
def work (places : List Place) : Nat :=
  places.count .woken + 2 * places.count .signalling +
    (places.length + 1) * places.count .broadcasting

theorem lookAt_places (monitor : Monitor Resource Input Result)
    (state : State Resource Input Result) (thread : Nat) :
    (lookAt monitor state thread).places = state.places.set thread .waiting ∨
      (lookAt monitor state thread).places = state.places.set thread .outside := by
  rw [lookAt]
  split
  · exact .inl rfl
  · exact .inr rfl

theorem settle_work_lt (settled : settle monitor state action = some next) :
    work next.places < work state.places := by
  cases action with
  | supply thread input => cases settled
  | finish thread => cases settled
  | look thread =>
      obtain ⟨found, rfl⟩ := of_guard settled
      rcases lookAt_places monitor state thread with places | places
      · rw [places, work, work, List.length_set, ← count_set_old found .waiting (by decide),
          count_set_other found _ .signalling (by decide) (by decide),
          count_set_other found _ .broadcasting (by decide) (by decide)]
        omega
      · rw [places, work, work, List.length_set, ← count_set_old found .outside (by decide),
          count_set_other found _ .signalling (by decide) (by decide),
          count_set_other found _ .broadcasting (by decide) (by decide)]
        omega
  | signal thread other =>
      cases other with
      | none =>
          obtain ⟨⟨found, -⟩, rfl⟩ := of_guard settled
          change work (state.places.set thread .outside) < work state.places
          rw [work, work, List.length_set, ← count_set_old found .outside (by decide),
            count_set_other found _ .woken (by decide) (by decide),
            count_set_other found _ .broadcasting (by decide) (by decide)]
          omega
      | some other =>
          obtain ⟨⟨found, waits⟩, rfl⟩ := of_guard settled
          have different : thread ≠ other := by
            rintro rfl
            rw [found] at waits
            cases waits
          have stillWaits : (state.places.set thread .outside)[other]? = some .waiting := by
            rwa [List.getElem?_set_ne different]
          change work ((state.places.set thread .outside).set other .woken) < work state.places
          rw [work, work, List.length_set, List.length_set,
            ← count_set_old found .outside (by decide), count_set_new stillWaits _ (by decide),
            count_set_other stillWaits _ .signalling (by decide) (by decide),
            count_set_other stillWaits _ .broadcasting (by decide) (by decide),
            count_set_other found _ .woken (by decide) (by decide),
            count_set_other found _ .broadcasting (by decide) (by decide)]
          omega
  | broadcast thread =>
      obtain ⟨found, rfl⟩ := of_guard settled
      change work ((state.places.set thread .outside).map Place.wake) < work state.places
      -- The threads woken are at most all of them, which is what the broadcast was counted for.
      have wakes : (state.places.set thread .outside).count .waiting ≤ state.places.length :=
        Nat.le_trans List.count_le_length (Nat.le_of_eq List.length_set)
      rw [work, work, List.length_map, List.length_set, count_woken_map_wake,
        count_map_wake _ (by decide) (by decide), count_map_wake _ (by decide) (by decide),
        ← count_set_old found .outside (by decide),
        count_set_other found _ .woken (by decide) (by decide),
        count_set_other found _ .signalling (by decide) (by decide), Nat.mul_succ]
      omega
  | spurious thread => cases settled

/-- When nothing that is under way can go on, nothing is under way. -/
theorem quiet_of_settled (settled : ∀ action, settle monitor state action = none) :
    Quiet state.places := by
  intro place member
  obtain ⟨thread, found⟩ := List.getElem?_of_mem member
  cases place with
  | outside => exact .inl rfl
  | waiting => exact .inr rfl
  | signalling =>
      by_cases anyone : .waiting ∈ state.places
      · obtain ⟨other, waits⟩ := List.getElem?_of_mem anyone
        have refused := settled (.signal thread (some other))
        rw [settle, step, if_pos ⟨found, waits⟩] at refused
        cases refused
      · have refused := settled (.signal thread none)
        rw [settle, step, if_pos ⟨found, anyone⟩] at refused
        cases refused
  | broadcasting =>
      have refused := settled (.broadcast thread)
      rw [settle, step, if_pos found] at refused
      cases refused
  | woken =>
      have refused := settled (.look thread)
      rw [settle, if_pos found] at refused
      cases refused

end Runs

end Monitors
