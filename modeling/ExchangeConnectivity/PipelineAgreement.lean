import ExchangeConnectivity.LockFreePipeline
import ExchangeConnectivity.MutexPipeline
import Mathlib.Logic.Relation

/-!
# The three pipelines

`runBaseline` delivers its messages under every order of the steps of its
threads.  `runPool` does so as long as no storage is left behind that the
consumer refers to, and `runScSpPool` as long as its pool is not exhausted,
which it is when the producer is a whole pool ahead.
-/

namespace ExchangeConnectivity

open ActionRuns

namespace Pools

namespace PerfTests

namespace Pooled

namespace RunScSpPool

open BookUpdatesScspPool

variable {capacity : Capacity} {messageCount : Nat}

/-- The states the producer reaches while the consumer loop rests. -/
def Alone (messageCount : Nat) : State capacity → State capacity → Prop :=
  Relation.ReflTransGen fun state next => step messageCount state .producer = some next

theorem Alone.run {state final : State capacity} (alone : Alone messageCount state final) :
    ∃ count, runFrom (step messageCount) state (List.replicate count .producer) = some final := by
  induction alone using Relation.ReflTransGen.head_induction_on with
  | refl => exact ⟨0, rfl⟩
  | head stepped _ ih =>
      obtain ⟨count, run⟩ := ih
      exact ⟨count + 1, runFrom_cons_eq_some_iff.mpr ⟨_, stepped, run⟩⟩

section Acquire

variable {state : State capacity} {sequence : Nat}

theorem step_acquiring (running : state.terminated = false)
    (at_ : state.loops.producer = .acquiring sequence) :
    step messageCount state .producer = acquire state sequence := by
  rw [step, running]
  simp only [Bool.false_eq_true, if_false, act, at_]

theorem step_loops (running : state.terminated = false) {loops : Loops}
    {written : List BookUpdate}
    (moved : state.loops.stepProducer messageCount state.pool.objects = some (loops, written)) :
    step messageCount state .producer = some (advance state (loops, written)) := by
  rw [step, running]
  simp only [Bool.false_eq_true, if_false, act]
  split
  next sequence at_ =>
    rw [Loops.stepProducer, at_] at moved
    cases moved
  next =>
    rw [moved]
    rfl

/-- A step of `pop` is one of `acquire`, which returns when `pop` does. -/
theorem acquire_of_stepConsumer {freeIndices : RingBuffer Nat capacity}
    {returned : Option (Option Nat)}
    (stepped : state.pool.freeIndices.stepConsumer id = some (freeIndices, returned)) :
    acquire state sequence =
      some
        (returned.elim { state with pool := { state.pool with freeIndices } } fun result =>
          { state with
            pool := { state.pool with freeIndices }
            loops := state.loops.acquired sequence (leaseFor result) }) := by
  rw [acquire]
  split
  next idle =>
    rw [RingBuffer.stepConsumer, idle] at stepped
    cases stepped
  next =>
    rw [BookUpdatePool.stepAcquire, stepped]
    cases returned <;> rfl

/-- A call of `pop` that nothing interrupts makes `acquire` return. -/
theorem alone_runConsumer {fuel : Nat} (running : state.terminated = false)
    (at_ : state.loops.producer = .acquiring sequence)
    {freeIndices : RingBuffer Nat capacity} {result : Option Nat}
    (returned : RingBuffer.runConsumer id fuel state.pool.freeIndices =
      some (freeIndices, result)) :
    Alone messageCount state
      { state with
        pool := { state.pool with freeIndices }
        loops := state.loops.acquired sequence (leaseFor result) } := by
  induction fuel generalizing state with
  | zero => cases returned
  | succ fuel ih =>
      rw [RingBuffer.runConsumer] at returned
      split at returned
      next stepped =>
        cases returned
        exact .single ((step_acquiring running at_).trans (acquire_of_stepConsumer stepped))
      next between stepped =>
        exact .head ((step_acquiring running at_).trans (acquire_of_stepConsumer stepped))
          (ih running at_ returned)
      next => cases returned

theorem alone_acquire (running : state.terminated = false)
    (at_ : state.loops.producer = .acquiring sequence)
    (idle : state.pool.freeIndices.consumer = .idle)
    {freeIndices : RingBuffer Nat capacity} {result : Option Nat}
    (popped : state.pool.freeIndices.popAlone id = some (freeIndices, result)) :
    Alone messageCount state
      { state with
        pool := { state.pool with freeIndices }
        loops := state.loops.acquired sequence (leaseFor result) } := by
  obtain ⟨entered, called, returned⟩ := Option.bind_eq_some_iff.mp popped
  let calling : State capacity :=
    { state with pool := { state.pool with freeIndices := entered } }
  have first : step messageCount state .producer = some calling := by
    rw [step_acquiring running at_, acquire, idle]
    simp only [BookUpdatePool.acquire, called, Option.map_some, calling]
  have stillRunning : calling.terminated = false := running
  have stillAt : calling.loops.producer = .acquiring sequence := at_
  exact .head first (alone_runConsumer stillRunning stillAt returned)

end Acquire

/-- The producer has pushed some messages, and each has cost the pool an object. -/
structure Ahead (state : State capacity) (count : Nat) : Prop where
  producer : state.loops.producer = .starting (count + 1)
  running : state.terminated = false
  idle : state.pool.freeIndices.consumer = .idle
  consistent : state.pool.freeIndices.Consistent
  free : state.pool.freeIndices.unread.length + count = capacity.value

section Ahead

variable {state : State capacity} {count : Nat}

/-- The next call of `acquire` takes the oldest free index, if there is one. -/
theorem Ahead.acquire (ahead : Ahead state count) (more : count < messageCount) :
    ∃ next, Alone messageCount state next ∧
      next.loops.producer =
        .producing (count + 1) (leaseFor state.pool.freeIndices.unread.head?) ∧
      next.terminated = false ∧ next.pool.freeIndices.consumer = .idle ∧
      next.pool.freeIndices.Consistent ∧
      next.pool.freeIndices.unread = state.pool.freeIndices.unread.tail := by
  let entered : State capacity :=
    advance state ({ state.loops with producer := .acquiring (count + 1) }, state.pool.objects)
  have starts : step messageCount state .producer = some entered := by
    apply step_loops ahead.running
    simp only [Loops.stepProducer, ahead.producer]
    exact if_pos more
  obtain ⟨freeIndices, popped, consumer, -, tail⟩ :=
    ahead.consistent.popAlone_eq id ahead.idle
  have running : entered.terminated = false := ahead.running
  have at_ : entered.loops.producer = .acquiring (count + 1) := rfl
  have idle : entered.pool.freeIndices.consumer = .idle := ahead.idle
  refine ⟨_, .head starts (alone_acquire running at_ idle popped), rfl, ahead.running, consumer,
    ?_, tail⟩
  exact ahead.consistent.popAlone popped

theorem Ahead.push (bound : messageCount < 2 ^ 64 - 1) (ahead : Ahead state count)
    (more : count < messageCount) (room : count < capacity.value) :
    ∃ next, Alone messageCount state next ∧ Ahead next (count + 1) := by
  have free := ahead.free
  obtain ⟨acquired, acquires, at_, running, idle, consistent, tail⟩ := ahead.acquire more
  cases unread : state.pool.freeIndices.unread with
  | nil =>
      rw [unread, List.length_nil] at free
      omega
  | cons index others =>
      rw [unread] at at_ tail free
      let lease : Lease := { pool := true, index }
      have holding : acquired.loops.producer = .producing (count + 1) lease := at_
      let filled : State capacity :=
        advance acquired
          ({ acquired.loops with producer := .pushing (count + 1) lease },
            acquired.pool.objects.modify index (produce · (UInt64.ofNat (count + 1))))
      let pushed : State capacity :=
        advance filled
          ({ filled.loops with
              producer := .starting ((count + 1 + 1) % 2 ^ 64)
              queue := filled.loops.queue.push lease },
            filled.pool.objects)
      have fills : step messageCount acquired .producer = some filled := by
        apply step_loops running
        simp only [Loops.stepProducer, holding, lease, if_true]
      have stillRunning : filled.terminated = false := running
      have pushes : step messageCount filled .producer = some pushed :=
        step_loops stillRunning rfl
      refine ⟨pushed, (acquires.tail fills).tail pushes, ?_⟩
      constructor
      case producer => exact congrArg _ (Nat.mod_eq_of_lt (by omega))
      case running => exact running
      case idle => exact idle
      case consistent => exact consistent
      case free =>
        have left : pushed.pool.freeIndices.unread = others := tail
        rw [left, ← free, List.length_cons]
        omega

theorem Ahead.exhaust (ahead : Ahead state capacity.value) (more : capacity.value < messageCount) :
    ∃ next, Alone messageCount state next ∧
      next.loops.producer = .producing (capacity.value + 1) {} := by
  have free := ahead.free
  have exhausted : state.pool.freeIndices.unread = [] := List.length_eq_zero_iff.mp (by omega)
  obtain ⟨next, acquires, at_, -⟩ := ahead.acquire more
  rw [exhausted] at at_
  exact ⟨next, acquires, at_⟩

end Ahead

/-- With more messages than objects the producer gets an empty lease when the
consumer loop does not take a step. -/
theorem exists_exhausted (bound : messageCount < 2 ^ 64 - 1) {pool : BookUpdatePool capacity}
    (filled : pool.Filled capacity.value) (more : capacity.value < messageCount) :
    ∃ count state, runFrom (step messageCount) { pool } (List.replicate count .producer) =
        some state ∧ state.loops.producer = .producing (capacity.value + 1) {} := by
  have reached : ∀ count ≤ capacity.value, ∃ state : State capacity,
      Alone messageCount { pool } state ∧ Ahead state count := by
    intro count
    induction count with
    | zero =>
        intro _
        refine ⟨{ pool }, .refl, rfl, rfl, filled.idle.2, filled.consistent, ?_⟩
        rw [filled.unread, List.length_range]
        rfl
    | succ count ih =>
        intro le
        obtain ⟨state, alone, ahead⟩ := ih (Nat.le_of_succ_le le)
        obtain ⟨next, produces, aheadNext⟩ := ahead.push bound (Nat.lt_trans le more) le
        exact ⟨next, alone.trans produces, aheadNext⟩
  obtain ⟨state, alone, ahead⟩ := reached capacity.value (Nat.le_refl _)
  obtain ⟨final, acquires, at_⟩ := ahead.exhaust more
  obtain ⟨count, run⟩ := Alone.run (alone.trans acquires)
  exact ⟨count, final, run, at_⟩

end RunScSpPool

end Pooled

namespace Baseline

variable {messageCount : Nat}

theorem delivering (bound : messageCount < 2 ^ 64 - 1) (threads : List Thread) :
    EveryState (step messageCount) (Delivering messageCount) {} threads := by
  have kept : ∀ {state : State}, OnCourse messageCount state →
      EveryState (step messageCount) (Delivering messageCount) state threads := by
    induction threads with
    | nil => exact fun onCourse => onCourse.delivering
    | cons thread threads ih =>
        intro state onCourse
        exact ⟨onCourse.delivering, fun next stepped => ih (onCourse.step bound stepped)⟩
  exact kept (start_onCourse messageCount)

/-- A message is produced whenever the producer is at the head of its loop, since
every number of 64 bits is at most the largest one. -/
theorem exists_run_of_max (rounds : Nat) {state : State} {sequence : Nat}
    (at_ : state.producer = .starting sequence) (lt : sequence < 2 ^ 64) :
    ∃ final, runFrom (step (2 ^ 64 - 1)) state (List.replicate (3 * rounds) .producer) =
      some final := by
  induction rounds generalizing state sequence with
  | zero => exact ⟨state, rfl⟩
  | succ rounds ih =>
      let update := produce {} (UInt64.ofNat sequence)
      let next : State :=
        { state with
          producer := .starting ((sequence + 1) % 2 ^ 64)
          queue := state.queue.push update }
      obtain ⟨final, run⟩ := @ih next _ rfl (Nat.mod_lt _ (by decide))
      refine ⟨final, ?_⟩
      have starts : step (2 ^ 64 - 1) state .producer =
          some { state with producer := .producing sequence {} } := by
        rw [step, stepProducer, at_]
        exact if_pos (by omega)
      exact runFrom_cons_eq_some_iff.mpr ⟨_, starts, run⟩

/-- The baseline ends unless the counter of the producer wraps around before it
is past the last message. -/
theorem ends_iff (messageCount : UInt64) :
    Ends (step messageCount.toNat) {} ↔ messageCount.toNat < 2 ^ 64 - 1 := by
  have below := messageCount.toNat_lt
  constructor
  · rintro ⟨most, ends⟩
    by_contra notBelow
    have largest : messageCount.toNat = 2 ^ 64 - 1 := by omega
    rw [largest] at ends
    obtain ⟨final, run⟩ := @exists_run_of_max (most + 1) {} 1 rfl (by decide)
    have within := ends _ final run
    rw [List.length_replicate] at within
    omega
  · intro bound
    have preserved : ∀ {state next : State} {thread : Thread},
        OnCourse messageCount.toNat state → step messageCount.toNat state thread = some next →
          OnCourse messageCount.toNat next :=
      fun onCourse stepped => onCourse.step bound stepped
    have lowers : ∀ {state next : State} {thread : Thread},
        OnCourse messageCount.toNat state → step messageCount.toNat state thread = some next →
          next.work messageCount.toNat < state.work messageCount.toNat :=
      fun onCourse stepped => onCourse.step_work bound stepped
    have initially := start_onCourse messageCount.toNat
    exact ⟨_, fun _ _ run => run_length_le_measure_of_invariant preserved lowers run initially⟩

end Baseline

section Agreement

open Pooled BookUpdatesScspPool

/-- The capacity of the pool in `runScSpPool`. -/
def scSpPoolCapacity : Capacity where
  value := 64 * 1024
  powerOfTwo := by decide
  atLeastTwo := by decide

end Agreement

end PerfTests

end Pools

end ExchangeConnectivity
