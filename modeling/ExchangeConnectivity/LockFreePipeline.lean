import ExchangeConnectivity.LockFreePoolLeases
import ExchangeConnectivity.PooledLoops
import ExchangeConnectivity.RingBufferProgress

/-!
# The pipeline with the lock-free pool

`runScSpPool` of `pools/main.cpp`, in which the producer thread acquires and the
consumer loop releases.  The pool does not grow, and `acquire` returns an empty
lease when it finds no free index.
-/

namespace ExchangeConnectivity

open ActionRuns LentObjects

namespace Pools

namespace PerfTests

namespace Pooled

namespace RunScSpPool

open BookUpdatesScspPool

structure State (capacity : Capacity) where
  pool : BookUpdatePool capacity
  loops : Loops := {}
  terminated : Bool := false

variable {capacity : Capacity}

/-- The call of `acquire` or its next step. -/
def acquire (state : State capacity) (sequence : Nat) : Option (State capacity) :=
  match state.pool.freeIndices.consumer with
  | .idle => state.pool.acquire.map fun pool => { state with pool }
  | _ =>
      state.pool.stepAcquire.map fun (pool, returned) =>
        match returned with
        | none => { state with pool }
        | some result =>
            { state with pool, loops := state.loops.acquired sequence (leaseFor result) }

/-- The next step of `release` after the object has been cleared. -/
def insert (state : State capacity) (lease : Lease) : Option (State capacity) :=
  (state.pool.stepInsert lease.index).map fun (pool, returned) =>
    match returned with
    | none => { state with pool }
    | some true => { state with pool, loops := state.loops.released }
    | some false => { state with pool, terminated := true }

def advance (state : State capacity) (result : Loops × List BookUpdate) : State capacity :=
  { state with
    pool := { state.pool with objects := result.2 }
    loops := result.1 }

def act (messageCount : Nat) (state : State capacity) : Thread → Option (State capacity)
  | .producer =>
      match state.loops.producer with
      | .acquiring sequence => acquire state sequence
      | _ => (state.loops.stepProducer messageCount state.pool.objects).map (advance state)
  | .consumer =>
      match state.loops.consumer with
      | .inserting lease => insert state lease
      | _ => (state.loops.stepConsumer {} state.pool.objects).map (advance state)

def step (messageCount : Nat) (state : State capacity) (thread : Thread) :
    Option (State capacity) :=
  if state.terminated then none else act messageCount state thread

/-- When `acquire` reads how far the other thread is, some object is neither on
its way nor in the hands of the consumer. -/
def Stocked (state : State capacity) : Thread → Prop
  | .producer => (∃ sequence, state.loops.producer = .acquiring sequence) →
      (∃ seq, state.pool.freeIndices.consumer = .refresh seq) →
        state.loops.leases.length < capacity.value
  | .consumer => True

/-- The messages arrive, no call of `acquire` has failed, the program runs, and
the messages have all been reported when the pipeline ends. -/
structure Delivering (messageCount : Nat) (state : State capacity) : Prop where
  delivers : Delivers messageCount {} state.loops state.pool.objects
  notFailed : state.pool.freeIndices.pendingTake = []
  running : state.terminated = false
  reports : (∀ thread, step messageCount state thread = none) →
    state.loops.result = report messageCount

structure Kept (messageCount : Nat) (state : State capacity) : Prop where
  delivers : Delivers messageCount {} state.loops state.pool.objects
  notFailed : state.pool.freeIndices.pendingTake = []
  running : state.terminated = false
  lent : state.pool.LentTo state.loops.held
  inserts : InsertsCleared state.loops state.pool.objects
  inserting : ∀ index, state.pool.freeIndices.producer.item = some index →
    ∃ lease, state.loops.consumer = .inserting lease ∧ lease.index = index

theorem start_kept (messageCount : Nat) {pool : BookUpdatePool capacity}
    (filled : pool.Filled capacity.value) : Kept messageCount { pool } where
  delivers := start_delivers messageCount {} _
  notFailed := by
    rw [RingBuffer.pendingTake, filled.idle.2]
  running := rfl
  lent := filled.lentTo
  inserts := by
    rintro _ ⟨⟩
  inserting := by
    rw [filled.idle.1]
    rintro _ ⟨⟩

section Steps

variable {messageCount sequence : Nat} {state next : State capacity}

theorem Kept.nodup (kept : Kept messageCount state) : state.loops.held.Nodup :=
  (List.nodup_append.mp kept.lent.lending.nodup).2.1

theorem Kept.bounded (kept : Kept messageCount state) :
    ∀ index ∈ state.loops.held, index < state.pool.objects.length :=
  fun _ isHeld => kept.lent.lending.lt_of_held isHeld

theorem Kept.advance (bound : messageCount < 2 ^ 64 - 1) (kept : Kept messageCount state)
    {loops : Loops} {written : List BookUpdate}
    (advances : Advances messageCount {} state.loops loops state.pool.objects written) :
    Kept messageCount (advance state (loops, written)) where
  delivers := kept.delivers.advance bound advances fun index _ => Nat.zero_le index
  notFailed := kept.notFailed
  running := kept.running
  lent := by
    have held : loops.held = state.loops.held := congrArg (List.map Lease.index) advances.leases
    rcases advances.writes with same | ⟨lease, member, update, same, apart⟩
    · cases same
      exact held ▸ kept.lent
    · cases same
      have notInserting : state.pool.freeIndices.producer.item ≠ some lease.index := by
        intro item
        obtain ⟨other, inserting, sameIndex⟩ := kept.inserting _ item
        exact apart other inserting sameIndex
      have written := kept.lent.write (List.mem_map_of_mem member) notInserting update
      exact held ▸ written
  inserts := kept.inserts.advance advances
  inserting := by
    intro index item
    obtain ⟨lease, inserting, sameIndex⟩ := kept.inserting index item
    exact ⟨lease, advances.inserting lease inserting, sameIndex⟩

theorem acquire_ne_none (state : State capacity) (sequence : Nat) :
    acquire state sequence ≠ none := by
  rw [acquire]
  split
  next idle =>
    rw [BookUpdatePool.acquire, RingBuffer.pop, idle]
    exact Option.some_ne_none _
  next busy =>
    rw [BookUpdatePool.stepAcquire, Option.map_map]
    exact fun stuck => RingBuffer.stepConsumer_ne_none id busy (Option.map_eq_none_iff.mp stuck)

theorem insert_ne_none (state : State capacity) (lease : Lease) : insert state lease ≠ none := by
  intro stuck
  have stepStuck := Option.map_eq_none_iff.mp stuck
  rw [BookUpdatePool.stepInsert] at stepStuck
  split at stepStuck
  next idle =>
    rw [RingBuffer.emplace, idle] at stepStuck
    cases stepStuck
  next busy => exact RingBuffer.stepProducer_ne_none busy (Option.map_eq_none_iff.mp stepStuck)

/-- Some index is free as long as not all objects have leases. -/
theorem Kept.free_iff (kept : Kept messageCount state) :
    0 < state.pool.freeIndices.unread.length ↔ state.loops.leases.length < capacity.value := by
  have total := kept.lent.lending.length
  have length : state.loops.held.length = state.loops.leases.length := List.length_map _
  rw [kept.lent.sized] at total
  omega

theorem acquire_notFailed {pool after : BookUpdatePool capacity}
    (called : pool.acquire = some after) : after.freeIndices.pendingTake = [] := by
  obtain ⟨popping, -⟩ := BookUpdatePool.acquire_eq_some called
  obtain ⟨-, entered⟩ := RingBuffer.pop_eq_some popping
  rw [entered]
  rfl

theorem stepInsert_pendingTake {pool after : BookUpdatePool capacity} {index : Nat}
    {result : Option Bool} (stepped : pool.stepInsert index = some (after, result)) :
    after.freeIndices.pendingTake = pool.freeIndices.pendingTake := by
  obtain ⟨-, ⟨called, -⟩ | inserted⟩ := BookUpdatePool.stepInsert_cases stepped
  · obtain ⟨-, entered⟩ := RingBuffer.emplace_eq_some called
    rw [entered]
    rfl
  · exact RingBuffer.stepProducer_pendingTake inserted

/-- A step of `acquire` that returns nothing yet. -/
theorem Kept.of_pool (kept : Kept messageCount state) {pool : BookUpdatePool capacity}
    (objects : pool.objects = state.pool.objects)
    (producer : pool.freeIndices.producer = state.pool.freeIndices.producer)
    (lent : pool.LentTo state.loops.held) (notFailed : pool.freeIndices.pendingTake = []) :
    Kept messageCount { state with pool } where
  delivers := objects.symm ▸ kept.delivers
  notFailed := notFailed
  running := kept.running
  lent := lent
  inserts := objects.symm ▸ kept.inserts
  inserting := by
    rw [producer]
    exact kept.inserting

/-- The producer gets a lease for an index that `acquire` has found. -/
theorem Kept.acquired (kept : Kept messageCount state) {sequence index : Nat}
    {pool : BookUpdatePool capacity} (at_ : state.loops.producer = .acquiring sequence)
    (popping : state.pool.stepAcquire = some (pool, some (some index)))
    (notFailed : pool.freeIndices.pendingTake = []) :
    Kept messageCount
      { state with pool, loops := state.loops.acquired sequence (leaseFor (some index)) } := by
  obtain ⟨objects, producer, -⟩ := BookUpdatePool.stepAcquire_frame popping
  constructor
  case delivers =>
    apply kept.delivers.acquire at_ rfl
    case same =>
      intro other _
      rw [objects]
    case referenced => exact kept.delivers.referenced
  case notFailed => exact notFailed
  case running => exact kept.running
  case lent =>
    have lent := (kept.lent.stepAcquire_some popping).1
    exact lent.of_perm (Loops.acquired_held at_)
  case inserts => exact objects.symm ▸ kept.inserts
  case inserting =>
    rw [producer]
    exact kept.inserting

theorem Kept.acquire (kept : Kept messageCount state) {sequence : Nat}
    (at_ : state.loops.producer = .acquiring sequence)
    (stocked : (∃ seq, state.pool.freeIndices.consumer = .refresh seq) →
      state.loops.leases.length < capacity.value)
    (stepped : acquire state sequence = some next) : Kept messageCount next := by
  rw [RunScSpPool.acquire] at stepped
  split at stepped
  next =>
    obtain ⟨pool, called, rfl⟩ := Option.map_eq_some_iff.mp stepped
    obtain ⟨objects, producer, -⟩ := BookUpdatePool.acquire_frame called
    apply kept.of_pool objects producer (kept.lent.acquire called)
    exact acquire_notFailed called
  next =>
    obtain ⟨⟨pool, returned⟩, popping, rfl⟩ := Option.map_eq_some_iff.mp stepped
    have ringStep := (BookUpdatePool.stepAcquire_eq_some popping).1
    have notFailed : pool.freeIndices.pendingTake = [] := by
      rw [kept.lent.consistent.pendingTake_iff ringStep, kept.free_iff]
      exact stocked
    rcases returned with _ | _ | index
    · obtain ⟨objects, producer, -⟩ := BookUpdatePool.stepAcquire_frame popping
      exact kept.of_pool objects producer (kept.lent.stepAcquire popping rfl) notFailed
    · have failed := RingBuffer.stepConsumer_ne_nothing kept.notFailed ringStep
      exact absurd rfl failed
    · exact kept.acquired at_ popping notFailed

/-- A step of `acquire` fails if and only if it reads that no index is free. -/
theorem Kept.stocked_of_delivering (kept : Kept messageCount state) {sequence : Nat}
    (stepped : RunScSpPool.acquire state sequence = some next)
    (delivering : Delivering messageCount next)
    (refreshes : ∃ seq, state.pool.freeIndices.consumer = .refresh seq) :
    state.loops.leases.length < capacity.value := by
  obtain ⟨seq, refreshing⟩ := refreshes
  rw [RunScSpPool.acquire] at stepped
  split at stepped
  next idle =>
    rw [refreshing] at idle
    cases idle
  next =>
    obtain ⟨⟨pool, returned⟩, popping, rfl⟩ := Option.map_eq_some_iff.mp stepped
    have ringStep := (BookUpdatePool.stepAcquire_eq_some popping).1
    have notFailed : pool.freeIndices.pendingTake = [] := by
      cases returned <;> exact delivering.notFailed
    rw [kept.lent.consistent.pendingTake_iff ringStep, kept.free_iff] at notFailed
    exact notFailed ⟨seq, refreshing⟩

theorem Kept.insert (kept : Kept messageCount state) {lease : Lease}
    (at_ : state.loops.consumer = .inserting lease)
    (stepped : insert state lease = some next) : Kept messageCount next := by
  obtain ⟨⟨pool, returned⟩, inserted, rfl⟩ := Option.map_eq_some_iff.mp stepped
  have held : state.loops.held = lease.index :: state.loops.released.held :=
    Loops.released_held at_
  have isHeld : lease.index ∈ state.loops.held := held ▸ List.mem_cons_self
  obtain ⟨objects, -, -⟩ := BookUpdatePool.stepInsert_frame inserted
  have notFailed := (stepInsert_pendingTake inserted).trans kept.notFailed
  cases returned with
  | none =>
      obtain ⟨lent, item⟩ := kept.lent.stepInsert isHeld (kept.inserts lease at_) inserted
      constructor
      case delivers => exact objects.symm ▸ kept.delivers
      case notFailed => exact notFailed
      case running => exact kept.running
      case lent => exact lent
      case inserts => exact objects.symm ▸ kept.inserts
      case inserting =>
        intro other otherItem
        rcases item with item | item
        · rw [item] at otherItem
          cases otherItem
          exact ⟨lease, at_, rfl⟩
        · rw [item] at otherItem
          exact kept.inserting other otherItem
  | some result =>
      have atIndex : ∀ other, state.pool.freeIndices.producer.item = some other →
          other = lease.index := by
        intro other item
        obtain ⟨found, inserting, sameIndex⟩ := kept.inserting other item
        rw [at_] at inserting
        cases inserting
        exact sameIndex.symm
      obtain ⟨rfl, lent, idle⟩ := kept.lent.stepInsert_some atIndex (.of_eq held) inserted
      constructor
      case delivers => exact objects.symm ▸ kept.delivers.release at_
      case notFailed => exact notFailed
      case running => exact kept.running
      case lent => exact lent
      case inserts => nofun
      case inserting =>
        rw [idle]
        nofun

theorem Kept.step (bound : messageCount < 2 ^ 64 - 1) (kept : Kept messageCount state)
    {thread : Thread} (stepped : step messageCount state thread = some next)
    (stocked : Stocked state thread) :
    Kept messageCount next := by
  rw [RunScSpPool.step, kept.running] at stepped
  cases thread with
  | producer =>
      simp only [Bool.false_eq_true, if_false, act] at stepped
      split at stepped
      next sequence at_ => exact kept.acquire at_ (stocked ⟨sequence, at_⟩) stepped
      next =>
        obtain ⟨⟨loops, written⟩, moved, rfl⟩ := Option.map_eq_some_iff.mp stepped
        exact kept.advance bound (advances_stepProducer kept.nodup kept.bounded moved)
  | consumer =>
      simp only [Bool.false_eq_true, if_false, act] at stepped
      split at stepped
      next lease at_ => exact kept.insert at_ stepped
      next =>
        obtain ⟨⟨loops, written⟩, moved, rfl⟩ := Option.map_eq_some_iff.mp stepped
        exact kept.advance bound (advances_stepConsumer kept.nodup kept.bounded moved)

theorem Kept.delivering (kept : Kept messageCount state) : Delivering messageCount state where
  delivers := kept.delivers
  notFailed := kept.notFailed
  running := kept.running
  reports := by
    intro stuck
    have producerStuck := stuck .producer
    have consumerStuck := stuck .consumer
    rw [RunScSpPool.step, kept.running] at producerStuck consumerStuck
    simp only [Bool.false_eq_true, if_false, act] at producerStuck consumerStuck
    split at producerStuck
    next => exact absurd producerStuck (acquire_ne_none state _)
    next notAcquiring =>
      split at consumerStuck
      next => exact absurd consumerStuck (insert_ne_none state _)
      next notInserting =>
        exact kept.delivers.reports_of_stuck notAcquiring notInserting
          (Option.map_eq_none_iff.mp producerStuck) (Option.map_eq_none_iff.mp consumerStuck)

theorem Kept.stocked_iff (bound : messageCount < 2 ^ 64 - 1) (kept : Kept messageCount state)
    {thread : Thread} (stepped : RunScSpPool.step messageCount state thread = some next) :
    Stocked state thread ↔ Delivering messageCount next := by
  constructor
  · exact fun stocked => (kept.step bound stepped stocked).delivering
  · intro delivering
    cases thread with
    | producer =>
        rintro ⟨sequence, at_⟩
        rw [RunScSpPool.step, kept.running] at stepped
        simp only [Bool.false_eq_true, if_false, act, at_] at stepped
        exact kept.stocked_of_delivering stepped delivering
    | consumer => trivial

def State.work (messageCount : Nat) (state : State capacity) : Nat :=
  if state.terminated then 0
  else
    7 * state.loops.work messageCount + state.pool.freeIndices.consumer.work +
      state.pool.freeIndices.producer.work + 1

theorem acquire_consumer_work {pool after : BookUpdatePool capacity}
    (called : pool.acquire = some after) :
    after.freeIndices.consumer.work < pool.freeIndices.consumer.work := by
  obtain ⟨popping, -⟩ := BookUpdatePool.acquire_eq_some called
  obtain ⟨idle, entered⟩ := RingBuffer.pop_eq_some popping
  simp [idle, entered, Pools.Consumer.work]

theorem stepInsert_work {pool after : BookUpdatePool capacity} {index : Nat}
    (stepped : pool.stepInsert index = some (after, none)) :
    after.freeIndices.producer.work < pool.freeIndices.producer.work := by
  obtain ⟨-, ⟨called, -⟩ | inserted⟩ := BookUpdatePool.stepInsert_cases stepped
  · obtain ⟨idle, entered⟩ := RingBuffer.emplace_eq_some called
    simp [idle, entered, Pools.Producer.work]
  · exact RingBuffer.stepProducer_work inserted

theorem acquire_work {sequence : Nat} (running : state.terminated = false)
    (at_ : state.loops.producer = .acquiring sequence)
    (stepped : acquire state sequence = some next) :
    next.work messageCount < state.work messageCount := by
  rw [acquire] at stepped
  split at stepped
  next idle =>
    obtain ⟨pool, called, rfl⟩ := Option.map_eq_some_iff.mp stepped
    obtain ⟨-, producer, -⟩ := BookUpdatePool.acquire_frame called
    have entered := acquire_consumer_work called
    simp only [State.work, running, producer, Bool.false_eq_true, if_false]
    omega
  next =>
    obtain ⟨⟨pool, returned⟩, popping, rfl⟩ := Option.map_eq_some_iff.mp stepped
    obtain ⟨-, producer, -⟩ := BookUpdatePool.stepAcquire_frame popping
    cases returned with
    | none =>
        have lower := RingBuffer.stepConsumer_work ((BookUpdatePool.stepAcquire_eq_some popping).1)
        simp only [State.work, running, producer, Bool.false_eq_true, if_false]
        omega
    | some result =>
        have lower : (state.loops.acquired sequence (leaseFor result)).work messageCount <
            state.loops.work messageCount := Loops.acquired_work at_ _
        have bounded := pool.freeIndices.consumer.work_le
        simp only [State.work, running, producer, Bool.false_eq_true, if_false]
        omega

theorem insert_work {lease : Lease} (running : state.terminated = false)
    (at_ : state.loops.consumer = .inserting lease) (stepped : insert state lease = some next) :
    next.work messageCount < state.work messageCount := by
  obtain ⟨⟨pool, returned⟩, inserted, rfl⟩ := Option.map_eq_some_iff.mp stepped
  obtain ⟨-, consumer, -⟩ := BookUpdatePool.stepInsert_frame inserted
  rcases returned with _ | _ | _
  · have lower := stepInsert_work inserted
    simp only [State.work, running, consumer, Bool.false_eq_true, if_false]
    omega
  · simp only [State.work, running, Bool.false_eq_true, if_true, if_false]
    omega
  · have lower : state.loops.released.work messageCount < state.loops.work messageCount :=
      Loops.released_work at_
    have bounded := pool.freeIndices.producer.work_le
    simp only [State.work, running, consumer, Bool.false_eq_true, if_false]
    omega

theorem acquire_loops (stepped : acquire state sequence = some next) :
    next.loops = state.loops ∨ ∃ lease, next.loops = state.loops.acquired sequence lease := by
  rw [acquire] at stepped
  split at stepped
  next =>
    obtain ⟨pool, -, rfl⟩ := Option.map_eq_some_iff.mp stepped
    exact .inl rfl
  next =>
    obtain ⟨⟨pool, returned⟩, -, rfl⟩ := Option.map_eq_some_iff.mp stepped
    cases returned with
    | none => exact .inl rfl
    | some result => exact .inr ⟨_, rfl⟩

theorem insert_producer {lease : Lease} (stepped : insert state lease = some next) :
    next.loops.producer = state.loops.producer := by
  obtain ⟨⟨pool, returned⟩, -, rfl⟩ := Option.map_eq_some_iff.mp stepped
  rcases returned with _ | _ | _ <;> rfl

theorem step_inRange (bound : messageCount < 2 ^ 64 - 1)
    (inRange : state.loops.producer.InRange messageCount) {thread : Thread}
    (stepped : step messageCount state thread = some next) :
    next.loops.producer.InRange messageCount := by
  rw [step] at stepped
  split at stepped
  next => cases stepped
  next =>
    cases thread with
    | producer =>
        simp only [act] at stepped
        split at stepped
        next sequence at_ =>
          rcases acquire_loops stepped with same | ⟨lease, acquired⟩
          · rw [same]
            exact inRange
          · rw [acquired]
            exact Loops.acquired_inRange at_ inRange lease
        next =>
          obtain ⟨⟨loops, written⟩, moved, rfl⟩ := Option.map_eq_some_iff.mp stepped
          exact (Loops.stepProducer_frame bound inRange moved).1
    | consumer =>
        simp only [act] at stepped
        split at stepped
        next lease at_ =>
          rw [insert_producer stepped]
          exact inRange
        next =>
          obtain ⟨⟨loops, written⟩, moved, rfl⟩ := Option.map_eq_some_iff.mp stepped
          exact (Loops.stepConsumer_frame moved).1.symm ▸ inRange

theorem step_work (bound : messageCount < 2 ^ 64 - 1)
    (inRange : state.loops.producer.InRange messageCount) {thread : Thread}
    (stepped : step messageCount state thread = some next) :
    next.work messageCount < state.work messageCount := by
  rw [step] at stepped
  split at stepped
  next => cases stepped
  next running =>
    rw [Bool.not_eq_true] at running
    have advanced : ∀ {loops : Loops} {written : List BookUpdate},
        loops.work messageCount < state.loops.work messageCount →
          (RunScSpPool.advance state (loops, written)).work messageCount <
            state.work messageCount := by
      intro loops written lower
      simp only [State.work, RunScSpPool.advance, running, Bool.false_eq_true, if_false]
      omega
    cases thread with
    | producer =>
        simp only [act] at stepped
        split at stepped
        next sequence at_ => exact acquire_work running at_ stepped
        next =>
          obtain ⟨⟨loops, written⟩, moved, rfl⟩ := Option.map_eq_some_iff.mp stepped
          exact advanced (Loops.stepProducer_work bound inRange moved)
    | consumer =>
        simp only [act] at stepped
        split at stepped
        next lease at_ => exact insert_work running at_ stepped
        next =>
          obtain ⟨⟨loops, written⟩, moved, rfl⟩ := Option.map_eq_some_iff.mp stepped
          exact advanced (Loops.stepConsumer_work moved)

end Steps

theorem ends {messageCount : Nat} (bound : messageCount < 2 ^ 64 - 1)
    (pool : BookUpdatePool capacity) : Ends (step messageCount) { pool } := by
  let inRange (state : State capacity) : Prop := state.loops.producer.InRange messageCount
  have preserved : ∀ {state next : State capacity} {thread : Thread}, inRange state →
      step messageCount state thread = some next → inRange next :=
    fun here stepped => step_inRange bound here stepped
  have lowers : ∀ {state next : State capacity} {thread : Thread}, inRange state →
      step messageCount state thread = some next →
        next.work messageCount < state.work messageCount :=
    fun here stepped => step_work bound here stepped
  exact ⟨_, fun _ _ run => run_length_le_measure_of_invariant preserved lowers run trivial⟩

/-- Under every order of the steps of the two threads the messages arrive, if
and only if `acquire` is never called on an exhausted pool. -/
theorem delivering_iff {messageCount : Nat} (bound : messageCount < 2 ^ 64 - 1)
    {pool : BookUpdatePool capacity}
    (filled : pool.Filled capacity.value) (threads : List Thread) :
    EveryState (step messageCount) (Delivering messageCount) { pool } threads ↔
      EveryStep (step messageCount) Stocked { pool } threads := by
  have kept := start_kept messageCount filled
  have decides : ∀ {state next : State capacity} {thread : Thread}, Kept messageCount state →
      step messageCount state thread = some next →
        (Stocked state thread ↔ Delivering messageCount next) :=
    fun kept stepped => kept.stocked_iff bound stepped
  have preserved : ∀ {state next : State capacity} {thread : Thread}, Kept messageCount state →
      step messageCount state thread = some next → Stocked state thread →
        Kept messageCount next :=
    fun kept stepped stocked => kept.step bound stepped stocked
  exact everyState_iff_everyStep decides preserved threads kept kept.delivering

end RunScSpPool

end Pooled

end PerfTests

end Pools

end ExchangeConnectivity
