import ExchangeConnectivity.MutexPool
import ExchangeConnectivity.PooledLoops
import Mathlib.Tactic.Ring

/-!
# The pipeline with the pool under a mutex

`runPool` of `pools/main.cpp`.  The pool keeps its objects in a vector, which
moves them to another storage when it grows beyond what is reserved.  The lock
that `acquire` holds meanwhile keeps the consumer from inserting an index, but
not from using the objects.
-/

namespace ExchangeConnectivity

open ActionRuns LentObjects

namespace Pools

namespace PerfTests

namespace Pooled

namespace RunPool

/-- `reserved` is the number of objects that the storage of the vector has room
for; `growing` tells that `acquire` is filling the next storage. -/
structure State where
  pool : BookUpdatesPool.BookUpdatePool
  reserved : Nat
  growing : Bool := false
  storage : Storage := {}
  loops : Loops := {}

/-- `acquire` is to add an object for which nothing is reserved. -/
def Reallocates (state : State) : Prop :=
  state.pool.freeIndices = [] ∧ state.pool.objects.length = state.reserved

instance (state : State) : Decidable (Reallocates state) :=
  inferInstanceAs (Decidable (_ ∧ _))

/-- `acquire` of an object that is free, or for which there is room. -/
def acquireInPlace (state : State) (sequence : Nat) : State :=
  let (pool, lease) := state.pool.acquire
  { state with
    pool
    loops := state.loops.acquired sequence lease }

/-- The next object is moved to the next storage. -/
def moveObject (state : State) : State :=
  { state with storage := state.storage.move }

/-- The next storage, with the new object, takes the place of the old one, and
`acquire` returns. -/
def publish (growth : Nat → Nat) (state : State) (sequence : Nat) : State where
  pool := { state.pool with objects := state.pool.objects ++ [{}] }
  reserved := growth state.reserved
  storage := state.storage.publish
  loops := state.loops.acquired sequence { pool := true, index := state.pool.objects.length }

/-- The next step of `acquire`; `growth` is what the vector reserves when it
grows. -/
def acquire (growth : Nat → Nat) (state : State) (sequence : Nat) : State :=
  if state.growing then
    if state.storage.moved < state.pool.objects.length then moveObject state
    else publish growth state sequence
  else if Reallocates state then { state with growing := true }
  else acquireInPlace state sequence

def insert (state : State) (lease : Lease) : State :=
  { state with
    pool := state.pool.insert lease.index
    loops := state.loops.released }

def advance (state : State) (result : Loops × List BookUpdate) : State :=
  { state with
    pool := { state.pool with objects := result.2 }
    loops := result.1 }

/-- The consumer waits for the lock before it inserts an index. -/
def step (messageCount : Nat) (growth : Nat → Nat) (state : State) : Thread → Option State
  | .producer =>
      match state.loops.producer with
      | .acquiring sequence => some (acquire growth state sequence)
      | _ => (state.loops.stepProducer messageCount state.pool.objects).map (advance state)
  | .consumer =>
      match state.loops.consumer with
      | .inserting lease => if state.growing then none else some (insert state lease)
      | _ => (state.loops.stepConsumer state.storage state.pool.objects).map (advance state)

def start (initialCapacity reserved : Nat) : State where
  pool := .construct initialCapacity
  reserved := reserved

/-- The growing vector does not move an object that the consumer refers to, and
the consumer makes no reference to an object that has been moved while the old
storage is still in place. -/
def Undisturbed (state : State) : Thread → Prop
  | .producer => (∃ sequence, state.loops.producer = .acquiring sequence) →
      state.growing = true → state.storage.moved < state.pool.objects.length →
        ∀ reference, state.loops.consumer.reference = some reference →
          reference.index ≠ state.storage.moved
  | .consumer => ∀ index, state.loops.consumer.binds = some index → state.storage.moved ≤ index

/-- The messages arrive, and they have all been reported when the pipeline ends. -/
structure Delivering (messageCount : Nat) (growth : Nat → Nat) (state : State) : Prop where
  delivers : Delivers messageCount state.storage state.loops state.pool.objects
  reports : (∀ thread, step messageCount growth state thread = none) →
    state.loops.result = report messageCount

structure Kept (messageCount : Nat) (state : State) : Prop where
  delivers : Delivers messageCount state.storage state.loops state.pool.objects
  lent : state.pool.LentTo state.loops.held
  inserts : InsertsCleared state.loops state.pool.objects
  settled : state.growing = false → state.storage.moved = 0
  acquiring : state.growing = true → ∃ sequence, state.loops.producer = .acquiring sequence

theorem start_kept (messageCount initialCapacity reserved : Nat) :
    Kept messageCount (start initialCapacity reserved) where
  delivers := start_delivers messageCount {} _
  lent := BookUpdatesPool.BookUpdatePool.construct_lentTo initialCapacity
  inserts := nofun
  settled := fun _ => rfl
  acquiring := nofun

section Steps

variable {messageCount : Nat} {growth : Nat → Nat} {state next : State} {sequence : Nat}

theorem Kept.nodup (kept : Kept messageCount state) : state.loops.held.Nodup :=
  (List.nodup_append.mp (Lending.nodup kept.lent)).2.1

theorem Kept.bounded (kept : Kept messageCount state) :
    ∀ index ∈ state.loops.held, index < state.pool.objects.length :=
  fun _ isHeld => Lending.lt_of_held kept.lent isHeld

theorem Kept.reference_lt (kept : Kept messageCount state) {reference : Reference}
    (found : state.loops.consumer.reference = some reference) :
    reference.index < state.pool.objects.length := by
  obtain ⟨lease, held, same⟩ := Consumer.lease_of_reference found
  rw [← same]
  apply kept.bounded
  rw [Loops.held, Loops.leases, held]
  exact List.mem_map_of_mem (List.mem_append_left _ (List.mem_append_left _ List.mem_cons_self))

theorem Kept.advance (bound : messageCount < 2 ^ 64 - 1) (kept : Kept messageCount state)
    {loops : Loops} {written : List BookUpdate}
    (advances : Advances messageCount state.storage state.loops loops state.pool.objects written)
    (unmoved : ∀ index, state.loops.consumer.binds = some index → state.storage.moved ≤ index)
    (acquiring : state.growing = true → ∃ sequence, loops.producer = .acquiring sequence) :
    Kept messageCount (advance state (loops, written)) where
  delivers := kept.delivers.advance bound advances unmoved
  lent := by
    have held : loops.held = state.loops.held := congrArg (List.map Lease.index) advances.leases
    rcases advances.writes with same | ⟨lease, member, update, same, -⟩
    · cases same
      exact held ▸ kept.lent
    · cases same
      have written : Lending {} (state.pool.objects.set lease.index update)
          state.pool.freeIndices state.loops.held :=
        Lending.write kept.lent (List.mem_map_of_mem member)
      exact held ▸ written
  inserts := kept.inserts.advance advances
  settled := kept.settled
  acquiring := acquiring

/-- A step of the producer outside of `acquire` is taken while the vector rests. -/
theorem Kept.settled_of_not_acquiring (kept : Kept messageCount state)
    (notAcquiring : ∀ sequence, state.loops.producer ≠ .acquiring sequence) :
    state.growing = false ∧ state.storage.moved = 0 := by
  have resting : state.growing = false := by
    cases growing : state.growing with
    | false => rfl
    | true =>
        obtain ⟨sequence, at_⟩ := kept.acquiring growing
        exact absurd at_ (notAcquiring sequence)
  exact ⟨resting, kept.settled resting⟩

theorem Kept.acquireInPlace (kept : Kept messageCount state)
    (at_ : state.loops.producer = .acquiring sequence) (resting : state.growing = false) :
    Kept messageCount (acquireInPlace state sequence) := by
  obtain ⟨lent, -⟩ := BookUpdatesPool.BookUpdatePool.LentTo.acquire kept.lent
  constructor
  case delivers =>
    apply kept.delivers.acquire at_ (BookUpdatesPool.BookUpdatePool.acquire_owned _)
    case same =>
      intro other member
      have found := List.getElem?_eq_getElem (kept.bounded _ (List.mem_map_of_mem member))
      simp only [RunPool.acquireInPlace]
      rw [contents, contents, BookUpdatesPool.BookUpdatePool.acquire_getElem found, found]
    case referenced => exact kept.delivers.referenced
  case lent => exact Lending.of_perm lent (.refl _) (Loops.acquired_held at_)
  case inserts =>
    exact fun other inserting =>
      BookUpdatesPool.BookUpdatePool.acquire_getElem (kept.inserts other inserting)
  case settled => exact kept.settled
  case acquiring =>
    intro growing
    rw [RunPool.acquireInPlace, resting] at growing
    cases growing

/-- A reference survives the move of an object exactly when it is to another. -/
theorem Kept.moveObject_iff (kept : Kept messageCount state) :
    (∀ reference, state.loops.consumer.reference = some reference →
        reference.storage = (moveObject state).storage.location reference.index) ↔
      ∀ reference, state.loops.consumer.reference = some reference →
        reference.index ≠ state.storage.moved := by
  refine forall₂_congr fun reference found => ?_
  rw [kept.delivers.referenced reference found]
  exact Storage.location_move_iff

theorem Kept.moveObject (kept : Kept messageCount state) (growing : state.growing = true)
    (undisturbed : ∀ reference, state.loops.consumer.reference = some reference →
      reference.index ≠ state.storage.moved) :
    Kept messageCount (moveObject state) where
  delivers := { kept.delivers with referenced := kept.moveObject_iff.mpr undisturbed }
  lent := kept.lent
  inserts := kept.inserts
  settled := by
    intro resting
    rw [RunPool.moveObject, growing] at resting
    cases resting
  acquiring := kept.acquiring

/-- The references that are left are into the new storage. -/
theorem Kept.publish (kept : Kept messageCount state)
    (at_ : state.loops.producer = .acquiring sequence)
    (all : state.pool.objects.length ≤ state.storage.moved) :
    Kept messageCount (publish growth state sequence) where
  delivers := by
    apply kept.delivers.acquire at_ rfl
    case same =>
      intro other member
      have inside := kept.bounded _ (List.mem_map_of_mem member)
      rw [contents, contents, RunPool.publish, List.getElem?_append_left inside]
    case referenced =>
      intro reference found
      have inside := kept.reference_lt found
      rw [kept.delivers.referenced reference found]
      exact Storage.location_publish (Nat.lt_of_lt_of_le inside all)
  lent := Lending.of_perm kept.lent.grow (.refl _) (Loops.acquired_held at_)
  inserts := by
    intro other inserting
    have cleared := kept.inserts other inserting
    obtain ⟨inside, -⟩ := List.getElem?_eq_some_iff.mp cleared
    exact (List.getElem?_append_left inside).trans cleared
  settled := fun _ => rfl
  acquiring := nofun

theorem Kept.acquire (kept : Kept messageCount state)
    (at_ : state.loops.producer = .acquiring sequence)
    (undisturbed : Undisturbed state .producer) :
    Kept messageCount (acquire growth state sequence) := by
  rw [RunPool.acquire]
  split
  next growing =>
    split
    next left => exact kept.moveObject growing (undisturbed ⟨sequence, at_⟩ growing left)
    next all => exact kept.publish at_ (Nat.not_lt.mp all)
  next resting =>
    rw [Bool.not_eq_true] at resting
    split
    next =>
      exact { kept with
        settled := nofun
        acquiring := fun _ => ⟨sequence, at_⟩ }
    next => exact kept.acquireInPlace at_ resting

theorem Kept.insert (kept : Kept messageCount state) {lease : Lease}
    (at_ : state.loops.consumer = .inserting lease) : Kept messageCount (insert state lease) where
  delivers := kept.delivers.release at_
  lent := by
    have holders : state.loops.held.Perm (lease.index :: state.loops.released.held) :=
      .of_eq (Loops.released_held at_)
    exact kept.lent.insert holders (kept.inserts lease at_)
  inserts := nofun
  settled := kept.settled
  acquiring := kept.acquiring

theorem Kept.step (bound : messageCount < 2 ^ 64 - 1) (kept : Kept messageCount state)
    {thread : Thread} (stepped : step messageCount growth state thread = some next)
    (undisturbed : Undisturbed state thread) : Kept messageCount next := by
  cases thread with
  | producer =>
      simp only [RunPool.step] at stepped
      split at stepped
      next sequence at_ =>
        cases stepped
        exact kept.acquire at_ undisturbed
      next notAcquiring =>
        obtain ⟨⟨loops, written⟩, moved, rfl⟩ := Option.map_eq_some_iff.mp stepped
        obtain ⟨resting, unmoved⟩ := kept.settled_of_not_acquiring notAcquiring
        refine kept.advance bound (advances_stepProducer kept.nodup kept.bounded moved) ?_ ?_
        · intro index _
          rw [unmoved]
          exact Nat.zero_le index
        · intro growing
          rw [resting] at growing
          cases growing
  | consumer =>
      simp only [RunPool.step] at stepped
      split at stepped
      next lease at_ =>
        split at stepped <;> cases stepped
        exact kept.insert at_
      next =>
        obtain ⟨⟨loops, written⟩, moved, rfl⟩ := Option.map_eq_some_iff.mp stepped
        refine kept.advance bound (advances_stepConsumer kept.nodup kept.bounded moved)
          undisturbed ?_
        rw [(Loops.stepConsumer_frame moved).1]
        exact kept.acquiring

theorem Kept.delivering (kept : Kept messageCount state) (growth : Nat → Nat) :
    Delivering messageCount growth state where
  delivers := kept.delivers
  reports := by
    intro stuck
    have producerStuck := stuck .producer
    have consumerStuck := stuck .consumer
    simp only [RunPool.step] at producerStuck consumerStuck
    split at producerStuck
    next => cases producerStuck
    next notAcquiring =>
      obtain ⟨resting, -⟩ := kept.settled_of_not_acquiring notAcquiring
      split at consumerStuck
      next =>
        rw [resting] at consumerStuck
        cases consumerStuck
      next notInserting =>
        exact kept.delivers.reports_of_stuck notAcquiring notInserting
          (Option.map_eq_none_iff.mp producerStuck) (Option.map_eq_none_iff.mp consumerStuck)

/-- After a move every reference is in place only if none was to the object. -/
theorem Kept.undisturbed_producer (kept : Kept messageCount state)
    (stepped : RunPool.step messageCount growth state .producer = some next)
    (delivering : Delivering messageCount growth next) : Undisturbed state .producer := by
  rintro ⟨sequence, at_⟩ growing left
  simp only [RunPool.step, at_, Option.some_inj] at stepped
  rw [RunPool.acquire, if_pos growing, if_pos left] at stepped
  subst stepped
  exact kept.moveObject_iff.mp delivering.delivers.referenced

/-- A reference that has just been made is in place only if the object has not
been moved. -/
theorem undisturbed_consumer
    (stepped : RunPool.step messageCount growth state .consumer = some next)
    (delivering : Delivering messageCount growth next) : Undisturbed state .consumer := by
  intro index binds
  obtain ⟨reference, storage⟩ : next.loops.consumer.reference =
      some { index, storage := state.storage.published } ∧ next.storage = state.storage := by
    simp only [RunPool.step] at stepped
    split at stepped
    next lease at_ =>
      rw [at_] at binds
      cases binds
    next =>
      obtain ⟨⟨loops, written⟩, moved, rfl⟩ := Option.map_eq_some_iff.mp stepped
      exact ⟨Loops.reference_of_binds binds moved, rfl⟩
  have inPlace := delivering.delivers.referenced _ reference
  rw [storage] at inPlace
  exact Storage.location_eq_published_iff.mp inPlace

theorem Kept.undisturbed_iff (bound : messageCount < 2 ^ 64 - 1) (kept : Kept messageCount state)
    {thread : Thread} (stepped : RunPool.step messageCount growth state thread = some next) :
    Undisturbed state thread ↔ Delivering messageCount growth next := by
  constructor
  · exact fun undisturbed => (kept.step bound stepped undisturbed).delivering growth
  · intro delivering
    cases thread with
    | producer => exact kept.undisturbed_producer stepped delivering
    | consumer => exact undisturbed_consumer stepped delivering

/-- The most steps that some calls of `acquire` spend on growing. -/
def growthWork (calls length : Nat) : Nat :=
  calls * (length + calls + 2)

theorem growthWork_succ (calls length : Nat) :
    growthWork (calls + 1) length = growthWork calls (length + 1) + (length + calls + 3) := by
  rw [growthWork, growthWork]
  ring

theorem growthWork_le (calls : Nat) {length longer : Nat} (le : length ≤ longer) :
    growthWork calls length ≤ growthWork calls longer := by
  exact Nat.mul_le_mul_left calls (by omega)

/-- How many steps `acquire` has taken to grow. -/
def State.grown (state : State) : Nat :=
  if state.growing then min state.storage.moved state.pool.objects.length + 1 else 0

def State.work (messageCount : Nat) (state : State) : Nat :=
  state.loops.work messageCount +
    (growthWork (state.loops.producer.calls messageCount) state.pool.objects.length - state.grown)

/-- What is left when `acquire` has returned. -/
theorem work_returned {after : State} {lease : Lease}
    (loops : after.loops = state.loops.acquired sequence lease)
    (resting : after.growing = false) :
    after.work messageCount = (state.loops.acquired sequence lease).work messageCount +
      growthWork (messageCount - sequence) after.pool.objects.length := by
  rw [State.work, State.grown, resting, loops, if_neg Bool.false_ne_true, Nat.sub_zero]
  rfl

theorem acquire_work (at_ : state.loops.producer = .acquiring sequence) :
    (acquire growth state sequence).work messageCount < state.work messageCount := by
  have before : state.work messageCount = state.loops.work messageCount +
      (growthWork (messageCount - sequence + 1) state.pool.objects.length - state.grown) := by
    rw [State.work, at_, Producer.calls]
  have total := growthWork_succ (messageCount - sequence) state.pool.objects.length
  have later (lease : Lease) : (state.loops.acquired sequence lease).work messageCount <
      state.loops.work messageCount := Loops.acquired_work at_ lease
  rw [acquire]
  split
  next growing =>
    have grown : state.grown = min state.storage.moved state.pool.objects.length + 1 :=
      if_pos growing
    split
    next left =>
      have after : (moveObject state).work messageCount = state.loops.work messageCount +
          (growthWork (messageCount - sequence + 1) state.pool.objects.length -
            (moveObject state).grown) := by
        rw [State.work, moveObject, at_, Producer.calls]
      have moved : (moveObject state).grown =
          min (state.storage.moved + 1) state.pool.objects.length + 1 := if_pos growing
      omega
    next =>
      have lower := later { pool := true, index := state.pool.objects.length }
      have after : (publish growth state sequence).work messageCount =
          (state.loops.acquired sequence { pool := true, index := state.pool.objects.length }).work
            messageCount + growthWork (messageCount - sequence)
              (publish growth state sequence).pool.objects.length :=
        work_returned rfl rfl
      have length : (publish growth state sequence).pool.objects.length =
          state.pool.objects.length + 1 := List.length_append
      rw [length] at after
      omega
  next resting =>
    rw [Bool.not_eq_true] at resting
    have grown : state.grown = 0 := if_neg (by rw [resting]; exact Bool.false_ne_true)
    split
    next =>
      have after : State.work messageCount { state with growing := true } =
          state.loops.work messageCount +
            (growthWork (messageCount - sequence + 1) state.pool.objects.length -
              (min state.storage.moved state.pool.objects.length + 1)) := by
        rw [State.work, State.grown, at_, Producer.calls, if_pos rfl]
      omega
    next =>
      have lower := later state.pool.acquire.2
      have after : (acquireInPlace state sequence).work messageCount =
          (state.loops.acquired sequence state.pool.acquire.2).work messageCount +
            growthWork (messageCount - sequence) state.pool.acquire.1.objects.length :=
        work_returned rfl resting
      have longer := growthWork_le (messageCount - sequence)
        (BookUpdatesPool.BookUpdatePool.acquire_length_le_succ state.pool)
      omega

theorem advance_work {loops : Loops} {written : List BookUpdate}
    (lower : loops.work messageCount < state.loops.work messageCount)
    (calls : loops.producer.calls messageCount = state.loops.producer.calls messageCount)
    (length : written.length = state.pool.objects.length) :
    (advance state (loops, written)).work messageCount < state.work messageCount := by
  simp only [State.work, State.grown, advance, calls, length]
  omega

theorem step_inRange (bound : messageCount < 2 ^ 64 - 1)
    (inRange : state.loops.producer.InRange messageCount) {thread : Thread}
    (stepped : step messageCount growth state thread = some next) :
    next.loops.producer.InRange messageCount := by
  cases thread with
  | producer =>
      simp only [step] at stepped
      split at stepped
      next sequence at_ =>
        cases stepped
        rw [acquire]
        split_ifs
        · exact inRange
        · exact Loops.acquired_inRange at_ inRange _
        · exact inRange
        · exact Loops.acquired_inRange at_ inRange _
      next =>
        obtain ⟨⟨loops, written⟩, moved, rfl⟩ := Option.map_eq_some_iff.mp stepped
        exact (Loops.stepProducer_frame bound inRange moved).1
  | consumer =>
      simp only [step] at stepped
      split at stepped
      next lease at_ =>
        split at stepped <;> cases stepped
        exact inRange
      next =>
        obtain ⟨⟨loops, written⟩, moved, rfl⟩ := Option.map_eq_some_iff.mp stepped
        exact (Loops.stepConsumer_frame moved).1.symm ▸ inRange

theorem step_work (bound : messageCount < 2 ^ 64 - 1)
    (inRange : state.loops.producer.InRange messageCount) {thread : Thread}
    (stepped : step messageCount growth state thread = some next) :
    next.work messageCount < state.work messageCount := by
  cases thread with
  | producer =>
      simp only [step] at stepped
      split at stepped
      next sequence at_ =>
        cases stepped
        exact acquire_work at_
      next =>
        obtain ⟨⟨loops, written⟩, moved, rfl⟩ := Option.map_eq_some_iff.mp stepped
        obtain ⟨-, calls, length⟩ := Loops.stepProducer_frame bound inRange moved
        exact advance_work (Loops.stepProducer_work bound inRange moved) calls length
  | consumer =>
      simp only [step] at stepped
      split at stepped
      next lease at_ =>
        split at stepped <;> cases stepped
        exact Nat.add_lt_add_right (Loops.released_work at_) _
      next =>
        obtain ⟨⟨loops, written⟩, moved, rfl⟩ := Option.map_eq_some_iff.mp stepped
        obtain ⟨producer, length⟩ := Loops.stepConsumer_frame moved
        exact advance_work (Loops.stepConsumer_work moved) (congrArg _ producer) length

end Steps

theorem ends {messageCount : Nat} (bound : messageCount < 2 ^ 64 - 1)
    (initialCapacity reserved : Nat) (growth : Nat → Nat) :
    Ends (step messageCount growth) (start initialCapacity reserved) := by
  let inRange (state : State) : Prop := state.loops.producer.InRange messageCount
  have preserved : ∀ {state next : State} {thread : Thread}, inRange state →
      step messageCount growth state thread = some next → inRange next :=
    fun here stepped => step_inRange bound here stepped
  have lowers : ∀ {state next : State} {thread : Thread}, inRange state →
      step messageCount growth state thread = some next →
        next.work messageCount < state.work messageCount :=
    fun here stepped => step_work bound here stepped
  exact ⟨_, fun _ _ run => run_length_le_measure_of_invariant preserved lowers run trivial⟩

/-- Under every order of the steps of the two threads the messages arrive, if
and only if no reference of the consumer is disturbed. -/
theorem delivering_iff {messageCount : Nat} (bound : messageCount < 2 ^ 64 - 1)
    (initialCapacity reserved : Nat) (growth : Nat → Nat) (threads : List Thread) :
    EveryState (step messageCount growth) (Delivering messageCount growth)
        (start initialCapacity reserved) threads ↔
      EveryStep (step messageCount growth) Undisturbed (start initialCapacity reserved)
        threads := by
  have kept := start_kept messageCount initialCapacity reserved
  have decides : ∀ {state next : State} {thread : Thread}, Kept messageCount state →
      step messageCount growth state thread = some next →
        (Undisturbed state thread ↔ Delivering messageCount growth next) :=
    fun kept stepped => kept.undisturbed_iff bound stepped
  have preserved : ∀ {state next : State} {thread : Thread}, Kept messageCount state →
      step messageCount growth state thread = some next → Undisturbed state thread →
        Kept messageCount next :=
    fun kept stepped undisturbed => kept.step bound stepped undisturbed
  exact everyState_iff_everyStep decides preserved threads kept (kept.delivering growth)

-- The second message makes the vector move the object that the consumer has.
example :
    (runFrom (step 2 (2 * ·)) (start 1 1)
        [.producer, .producer, .producer, .producer, .producer, .consumer, .consumer, .producer,
          .producer]).map (fun state => (step 2 (2 * ·) state .consumer).isNone) = some true := by
  decide

end RunPool

end Pooled

end PerfTests

end Pools

end ExchangeConnectivity
