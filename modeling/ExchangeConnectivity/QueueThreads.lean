import ExchangeConnectivity.Monitors
import ExchangeConnectivity.Pipelines

/-!
# The queue between threads

`perf_tests::Queue` of `pools/main.cpp` as its threads see it: `push` and
`close` notify after they have released the lock, and `pop` waits on the
condition variable.  Whatever the number of threads and their interleaving, the
calls act on the queue one after the other and none waits for a value that is
there.
-/

namespace ExchangeConnectivity

open ActionRuns Monitors

namespace Pools

namespace PerfTests

namespace Queue

variable {T : Type}

/-- What `push`, `close` and `pop` do under the lock; `push` is followed by
`notify_one`, and `close` by `notify_all`. -/
def monitor (T : Type) : Monitor (Queue T) T (Option T) where
  look := pop
  supply := push
  finish := close

/-- A new queue with threads that have not called it yet. -/
def newThreads (T : Type) (count : Nat) : Monitors.State (Queue T) T (Option T) where
  resource := {}
  places := List.replicate count .outside

def pushedBy : Entry T (Option T) → Option T
  | .supplied value => some value
  | _ => none

def poppedBy : Entry T (Option T) → Option T
  | .returned _ value => value
  | _ => none

/-- The values pushed, in the order in which the lock was taken. -/
def pushed (history : List (Entry T (Option T))) : List T :=
  history.filterMap pushedBy

/-- The values popped, in that order. -/
def popped (history : List (Entry T (Option T))) : List T :=
  history.filterMap poppedBy

theorem pushed_concat (history : List (Entry T (Option T))) (entry : Entry T (Option T)) :
    pushed (history ++ [entry]) = pushed history ++ (pushedBy entry).toList := by
  rw [pushed, List.filterMap_append]
  cases entry <;> rfl

theorem popped_concat (history : List (Entry T (Option T))) (entry : Entry T (Option T)) :
    popped (history ++ [entry]) = popped history ++ (poppedBy entry).toList := by
  rw [popped, List.filterMap_append]
  cases entry with
  | supplied | finished => rfl
  | returned thread value => cases value <;> rfl

/-- Values leave in the order in which they came. -/
theorem pushed_eq_of_replays {history : List (Entry T (Option T))} {queue : Queue T}
    (replays : Replays (monitor T) {} history queue) :
    pushed history = popped history ++ queue.items := by
  induction replays with
  | nil => rfl
  | supplied before input ih =>
      rw [pushed_concat, popped_concat, ih]
      simp [pushedBy, poppedBy, monitor, push]
  | finished before ih =>
      rw [pushed_concat, popped_concat, ih]
      simp [pushedBy, poppedBy, monitor, close]
  | returned before thread looked ih =>
      rw [pushed_concat, popped_concat, ih]
      rcases pop_cases looked with ⟨rfl, rfl, -, -⟩ | ⟨value, rfl, items, -⟩
      · simp [pushedBy, poppedBy]
      · simp [pushedBy, poppedBy, items]

theorem closed_iff_of_replays {history : List (Entry T (Option T))} {queue : Queue T}
    (replays : Replays (monitor T) {} history queue) :
    queue.closed = true ↔ .finished ∈ history := by
  induction replays with
  | nil => simp
  | supplied before input ih => simpa [monitor, push] using ih
  | finished before ih => simp [monitor, close]
  | returned before thread looked ih =>
      rcases pop_cases looked with ⟨-, rfl, -, -⟩ | ⟨value, -, -, same⟩
      · simpa using ih
      · simpa [same] using ih

/-- The calls of any number of threads act on the queue one after the other:
values are popped in the order in which they were pushed, none is lost or
popped twice, and a `pop` reports the end only when the queue has been closed
and every value pushed before has been popped. -/
theorem queue_linearizable {count : Nat} {actions : List (Action T)}
    {state : Monitors.State (Queue T) T (Option T)}
    (run : runFrom (step (monitor T)) (newThreads T count) actions = some state) :
    pushed state.history = popped state.history ++ state.resource.items ∧
      (state.resource.closed = true ↔ .finished ∈ state.history) ∧
      ∀ past thread rest, state.history = past ++ .returned thread none :: rest →
        .finished ∈ past ∧ pushed past = popped past := by
  have replays := run_replays run rfl
  refine ⟨pushed_eq_of_replays replays, closed_iff_of_replays replays, ?_⟩
  intro past thread rest historyEq
  rw [historyEq] at replays
  obtain ⟨before, after, earlier, looked⟩ := replays.exists_look
  rcases pop_cases looked with ⟨-, -, empty, closed⟩ | ⟨value, equal, -, -⟩
  · refine ⟨(closed_iff_of_replays earlier).mp closed, ?_⟩
    rw [pushed_eq_of_replays earlier, empty, List.append_nil]
  · cases equal

/-- Two consumers and a producer: the second consumer finds the value that the
first was woken for, and both see the end. -/
theorem queue_linearizable_three :
    ∃ actions, ∃ state : Monitors.State (Queue Nat) Nat (Option Nat),
      runFrom (step (monitor Nat)) (newThreads Nat 3) actions = some state ∧
        pushed state.history = [7] ∧ state.resource.items = [] ∧
          pushed state.history = popped state.history ++ state.resource.items := by
  have run : runFrom (step (monitor Nat)) (newThreads Nat 3)
      [.look 1, .supply 0 7, .signal 0 (some 1), .look 2, .look 1, .finish 0, .broadcast 0,
        .look 1, .look 2] = some _ := rfl
  exact ⟨_, _, run, rfl, rfl, (queue_linearizable run).1⟩

theorem serves (T : Type) :
    Serves (monitor T) (fun queue => queue.items.length) fun queue => queue.closed = true where
  waits_iff := by
    intro queue
    cases queue with
    | mk items closed => cases items <;> cases closed <;> simp [monitor, pop]
  takes := by
    intro queue after result looked
    rcases pop_cases looked with ⟨-, rfl, -, closed⟩ | ⟨value, -, items, same⟩
    · exact ⟨Iff.rfl, fun continues => absurd closed continues⟩
    · exact ⟨by rw [same], fun _ => by rw [items, List.length_cons]⟩
  adds := by
    intro queue value
    exact ⟨Nat.le_of_eq List.length_append, Iff.rfl⟩
  ends := fun _ => rfl

theorem items_eq_nil_of_waiting {state : Monitors.State (Queue T) T (Option T)}
    (awake : Awake (fun queue => queue.items.length) (fun queue => queue.closed = true) state)
    (quiet : Monitors.Quiet state.places) (anyone : .waiting ∈ state.places) :
    state.resource.items = [] ∧ state.resource.closed = false := by
  have waits := awake.look_eq_none (serves T) quiet anyone
  obtain ⟨empty, continues⟩ := ((serves T).waits_iff state.resource).mp waits
  exact ⟨List.eq_nil_of_length_eq_zero empty, Bool.eq_false_iff.mpr continues⟩

/-- No wake-up is lost: the calls under way run on within a bounded number of
steps in whatever order, and in the state where they can go on no more, as in
every quiet one, a `pop` still waits only on a queue that is empty and not
closed. -/
theorem queue_never_stranded {count : Nat} {actions : List (Action T)}
    {state : Monitors.State (Queue T) T (Option T)}
    (run : runFrom (step (monitor T)) (newThreads T count) actions = some state) :
    (Monitors.Quiet state.places → .waiting ∈ state.places →
      state.resource.items = [] ∧ state.resource.closed = false) ∧
    ∀ later final, runFrom (settle (monitor T)) state later = some final →
      later.length ≤ work state.places ∧
        ((∀ action, settle (monitor T) final action = none) → Monitors.Quiet final.places ∧
          (.waiting ∈ final.places →
            final.resource.items = [] ∧ final.resource.closed = false)) := by
  have nobody : Place.waiting ∉ (newThreads T count).places := by
    intro member
    cases List.eq_of_mem_replicate member
  have awake := run_awake (serves T) run nobody
  refine ⟨items_eq_nil_of_waiting awake, fun later final continued => ?_⟩
  refine ⟨run_length_le_measure settle_work_lt continued, fun settled => ?_⟩
  have quiet := quiet_of_settled settled
  have stillAwake := invariant_of_run (settle_awake (serves T)) continued awake
  exact ⟨quiet, items_eq_nil_of_waiting stillAwake quiet⟩

/-- A consumer that waits before the producer has come is woken by its value. -/
theorem queue_never_stranded_two :
    ∃ actions, ∃ state : Monitors.State (Queue Nat) Nat (Option Nat),
      runFrom (step (monitor Nat)) (newThreads Nat 2) actions = some state ∧
        state.places = [.signalling, .waiting] ∧ state.resource.items = [7] ∧
          ∀ later final, runFrom (settle (monitor Nat)) state later = some final →
            later.length ≤ 2 := by
  have run : runFrom (step (monitor Nat)) (newThreads Nat 2) [.look 1, .supply 0 7] =
      some _ := rfl
  exact ⟨_, _, run, rfl, rfl, fun later final continued =>
    ((queue_never_stranded run).2 later final continued).1⟩

end Queue

end PerfTests

end Pools

end ExchangeConnectivity
