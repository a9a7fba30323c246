import ExchangeConnectivity.BookUpdates
import ExchangeConnectivity.Leases
import ExchangeConnectivity.LentObjects
import ExchangeConnectivity.RingBufferCalls

/-!
# The lock-free pool

`book_updates_scsp_pool::BookUpdatePool` of `pools/main.cpp`: a fixed number of
objects whose free indices wait in a ring buffer.  `acquire` is the consumer of
the ring buffer and `release` its producer.
-/

namespace ExchangeConnectivity

open BoundedQueue LentObjects

namespace Pools

namespace BookUpdatesScspPool

structure BookUpdatePool (capacity : Capacity) where
  objects : List BookUpdate
  freeIndices : RingBuffer Nat capacity
  acquiredCount : Nat := 0

namespace BookUpdatePool

variable {capacity : Capacity}

/-- One turn of the loop of the constructor; there is no result if it ends in
`std::terminate`. -/
def fill (pool : BookUpdatePool capacity) (index : Nat) : Option (BookUpdatePool capacity) :=
  match pool.freeIndices.emplaceAlone index with
  | some (freeIndices, true) => some { pool with freeIndices }
  | _ => none

def construct (capacity : Capacity) : Option (BookUpdatePool capacity) :=
  (List.range capacity.value).foldlM fill
    { objects := List.replicate capacity.value {}
      freeIndices := .empty (Vector.replicate capacity.value 0) }

def size (_ : BookUpdatePool capacity) : Nat :=
  capacity.value

/-- The counter is never changed. -/
def available (pool : BookUpdatePool capacity) : Nat :=
  capacity.value - pool.acquiredCount

/-- The call of `pop` in `acquire`. -/
def acquire (pool : BookUpdatePool capacity) : Option (BookUpdatePool capacity) :=
  pool.freeIndices.pop.map fun freeIndices => { pool with freeIndices }

/-- The next step of `acquire`, with the result of `pop` if it returns. -/
def stepAcquire (pool : BookUpdatePool capacity) :
    Option (BookUpdatePool capacity × Option (Option Nat)) :=
  (pool.freeIndices.stepConsumer id).map fun (freeIndices, result) =>
    ({ pool with freeIndices }, result)

/-- `release` before the call of `emplace`. -/
def clear (pool : BookUpdatePool capacity) (index : Nat) : BookUpdatePool capacity :=
  { pool with objects := pool.objects.modify index BookUpdate.clear }

/-- The next step of `release` after that, with the result of `emplace` if it
returns. -/
def stepInsert (pool : BookUpdatePool capacity) (index : Nat) :
    Option (BookUpdatePool capacity × Option Bool) :=
  match pool.freeIndices.producer with
  | .idle =>
      (pool.freeIndices.emplace index).map fun freeIndices => ({ pool with freeIndices }, none)
  | _ =>
      pool.freeIndices.stepProducer.map fun (freeIndices, result) =>
        ({ pool with freeIndices }, result)

section Calls

variable {pool next : BookUpdatePool capacity} {index : Nat}

theorem acquire_eq_some (called : pool.acquire = some next) :
    pool.freeIndices.pop = some next.freeIndices ∧
      next = { pool with freeIndices := next.freeIndices } := by
  obtain ⟨freeIndices, popping, rfl⟩ := Option.map_eq_some_iff.mp called
  exact ⟨popping, rfl⟩

theorem stepAcquire_eq_some {result : Option (Option Nat)}
    (stepped : pool.stepAcquire = some (next, result)) :
    pool.freeIndices.stepConsumer id = some (next.freeIndices, result) ∧
      next = { pool with freeIndices := next.freeIndices } := by
  obtain ⟨⟨freeIndices, returned⟩, popping, same⟩ := Option.map_eq_some_iff.mp stepped
  cases same
  exact ⟨popping, rfl⟩

/-- The step of `release` is the call of `emplace` or a step of that call. -/
theorem stepInsert_cases {result : Option Bool}
    (stepped : pool.stepInsert index = some (next, result)) :
    next = { pool with freeIndices := next.freeIndices } ∧
      (pool.freeIndices.emplace index = some next.freeIndices ∧ result = none ∨
        pool.freeIndices.stepProducer = some (next.freeIndices, result)) := by
  rw [stepInsert] at stepped
  split at stepped
  next =>
    obtain ⟨freeIndices, called, same⟩ := Option.map_eq_some_iff.mp stepped
    cases same
    exact ⟨rfl, .inl ⟨called, rfl⟩⟩
  next =>
    obtain ⟨⟨freeIndices, returned⟩, inserted, same⟩ := Option.map_eq_some_iff.mp stepped
    cases same
    exact ⟨rfl, .inr inserted⟩

end Calls

/-- What has been cleared stays so when another object is. -/
theorem clear_getElem {pool : BookUpdatePool capacity} {index other : Nat}
    (isCleared : pool.objects[other]? = some {}) :
    (pool.clear index).objects[other]? = some {} := by
  rw [clear, List.getElem?_modify, isCleared]
  split <;> rfl

theorem clear_getElem_self (pool : BookUpdatePool capacity) {index : Nat}
    (lt : index < pool.objects.length) : (pool.clear index).objects[index]? = some {} := by
  rw [clear, List.getElem?_modify_eq, List.getElem?_eq_getElem lt]
  rfl

/-- The objects of the pool are free or with these holders, one of whom is the
release whose index is being inserted. -/
structure LentTo (pool : BookUpdatePool capacity) (holders : List Nat) : Prop where
  consistent : pool.freeIndices.Consistent
  lending : Lending {} pool.objects pool.freeIndices.unread holders
  sized : pool.objects.length = capacity.value
  inserting : ∀ index, pool.freeIndices.producer.item = some index →
    index ∈ holders ∧ pool.objects[index]? = some {}
  accepting : ∀ index, .refuse index ∉ pool.freeIndices.history
  counter : pool.acquiredCount = 0

variable {pool next : BookUpdatePool capacity} {holders rest : List Nat} {index : Nat}

theorem LentTo.of_perm (lent : LentTo pool holders) (perm : rest.Perm holders) :
    LentTo pool rest where
  consistent := lent.consistent
  lending := lent.lending.of_perm (.refl _) perm
  sized := lent.sized
  inserting := by
    intro index found
    obtain ⟨isHeld, isCleared⟩ := lent.inserting index found
    exact ⟨perm.symm.subset isHeld, isCleared⟩
  accepting := lent.accepting
  counter := lent.counter

/-- As long as an index is out, the ring buffer has room. -/
theorem LentTo.room (lent : LentTo pool holders) (isHeld : index ∈ holders) :
    pool.freeIndices.unread.length < capacity.value := by
  have total := lent.lending.length
  have some_ := List.length_pos_of_mem isHeld
  rw [lent.sized] at total
  omega

/-- An operation of the ring buffer that refuses nothing keeps the pool in order
if it leaves the indices accounted for. -/
theorem LentTo.log {freeIndices : RingBuffer Nat capacity} {operation : BoundedQueue.Operation Nat}
    (lent : LentTo pool holders) (consistent : freeIndices.Consistent)
    (history : freeIndices.history = pool.freeIndices.history ++ [operation])
    (accepted : ∀ index, operation ≠ .refuse index)
    (lending : Lending {} pool.objects freeIndices.unread rest)
    (inserting : ∀ index, freeIndices.producer.item = some index →
      index ∈ rest ∧ pool.objects[index]? = some {}) :
    LentTo { pool with freeIndices } rest where
  consistent := consistent
  lending := lending
  sized := lent.sized
  inserting := inserting
  accepting := by
    intro index refused
    rw [history] at refused
    rcases List.mem_append.mp refused with refused | refused
    · exact lent.accepting index refused
    · exact accepted index (List.mem_singleton.mp refused).symm
  counter := lent.counter

/-- A step of the ring buffer that is no operation. -/
theorem LentTo.silent {freeIndices : RingBuffer Nat capacity} (lent : LentTo pool holders)
    (consistent : freeIndices.Consistent)
    (history : freeIndices.history = pool.freeIndices.history)
    (inserting : ∀ index, freeIndices.producer.item = some index →
      index ∈ holders ∧ pool.objects[index]? = some {}) :
    LentTo { pool with freeIndices } holders where
  consistent := consistent
  lending := by
    rw [lent.consistent.unread_eq consistent history]
    exact lent.lending
  sized := lent.sized
  inserting := inserting
  accepting := by
    rw [history]
    exact lent.accepting
  counter := lent.counter

theorem LentTo.acquire (lent : LentTo pool holders) (called : pool.acquire = some next) :
    LentTo next holders := by
  obtain ⟨popping, same⟩ := acquire_eq_some called
  have consistent := lent.consistent.pop popping
  obtain ⟨-, entered⟩ := RingBuffer.pop_eq_some popping
  rw [entered] at consistent
  rw [same, entered]
  exact lent.silent consistent rfl lent.inserting

/-- A step of `acquire` that does not return an index. -/
theorem LentTo.stepAcquire {result : Option (Option Nat)} (lent : LentTo pool holders)
    (stepped : pool.stepAcquire = some (next, result)) (nothing : result.join = none) :
    LentTo next holders := by
  obtain ⟨popping, same⟩ := stepAcquire_eq_some stepped
  rw [same]
  have consistent := lent.consistent.stepConsumer popping
  have inserting : ∀ index, next.freeIndices.producer.item = some index →
      index ∈ holders ∧ pool.objects[index]? = some {} := by
    rw [RingBuffer.stepConsumer_producer popping]
    exact lent.inserting
  cases RingBuffer.stepConsumer_effect popping with
  | silent history | nothing at_ history => exact lent.silent consistent history inserting
  | miss at_ history =>
      obtain ⟨before, after⟩ := (lent.consistent.operation consistent history).miss_eq
      have lending := lent.lending
      rw [before, ← after] at lending
      exact lent.log consistent history nofun lending inserting
  | pop => cases nothing

/-- A step of `acquire` that returns an index takes it from the free ones, and
its object is cleared. -/
theorem LentTo.stepAcquire_some (lent : LentTo pool holders)
    (stepped : pool.stepAcquire = some (next, some (some index))) :
    LentTo next (index :: holders) ∧ next.objects[index]? = some {} := by
  obtain ⟨popping, same⟩ := stepAcquire_eq_some stepped
  rw [same]
  have consistent := lent.consistent.stepConsumer popping
  have inserting : ∀ other, next.freeIndices.producer.item = some other →
      other ∈ index :: holders ∧ pool.objects[other]? = some {} := by
    rw [RingBuffer.stepConsumer_producer popping]
    intro other found
    obtain ⟨isHeld, isCleared⟩ := lent.inserting other found
    exact ⟨List.mem_cons_of_mem index isHeld, isCleared⟩
  cases RingBuffer.stepConsumer_effect popping with
  | pop at_ history =>
      have front := (lent.consistent.operation consistent history).pop_eq
      have frees : pool.freeIndices.unread.Perm (index :: next.freeIndices.unread) :=
        front ▸ .refl _
      have wasFree : index ∈ pool.freeIndices.unread := frees.symm.subset List.mem_cons_self
      exact ⟨lent.log consistent history nofun (lent.lending.lend frees) inserting,
        lent.lending.blank index wasFree⟩

theorem LentTo.clear (lent : LentTo pool holders) (isHeld : index ∈ holders) :
    LentTo (pool.clear index) holders := by
  have replaced : (pool.clear index).objects = pool.objects.set index {} := by
    rw [BookUpdatePool.clear, List.set_eq_modify]
    rfl
  constructor
  case consistent => exact lent.consistent
  case lending =>
    rw [replaced]
    exact lent.lending.write isHeld
  case sized =>
    rw [replaced, List.length_set]
    exact lent.sized
  case inserting =>
    intro other found
    obtain ⟨otherHeld, isCleared⟩ := lent.inserting other found
    exact ⟨otherHeld, clear_getElem isCleared⟩
  case accepting => exact lent.accepting
  case counter => exact lent.counter

/-- A holder writes to its object. -/
theorem LentTo.write (lent : LentTo pool holders) (isHeld : index ∈ holders)
    (notInserting : pool.freeIndices.producer.item ≠ some index) (update : BookUpdate) :
    LentTo { pool with objects := pool.objects.set index update } holders where
  consistent := lent.consistent
  lending := lent.lending.write isHeld
  sized := by
    rw [List.length_set]
    exact lent.sized
  inserting := by
    intro other found
    obtain ⟨otherHeld, isCleared⟩ := lent.inserting other found
    have different : index ≠ other := by
      rintro rfl
      exact notInserting found
    exact ⟨otherHeld, (List.getElem?_set_ne different).trans isCleared⟩
  accepting := lent.accepting
  counter := lent.counter

/-- A step of `release` on the way to its return. -/
theorem LentTo.stepInsert (lent : LentTo pool holders) (isHeld : index ∈ holders)
    (isCleared : pool.objects[index]? = some {})
    (stepped : pool.stepInsert index = some (next, none)) :
    LentTo next holders ∧
      (next.freeIndices.producer.item = some index ∨
        next.freeIndices.producer.item = pool.freeIndices.producer.item) := by
  obtain ⟨same, ⟨called, -⟩ | inserted⟩ := stepInsert_cases stepped
  · have consistent := lent.consistent.emplace called
    obtain ⟨-, entered⟩ := RingBuffer.emplace_eq_some called
    rw [entered] at consistent
    rw [same, entered]
    refine ⟨lent.silent consistent rfl ?_, .inl rfl⟩
    rintro _ ⟨⟩
    exact ⟨isHeld, isCleared⟩
  · rw [same]
    have consistent := lent.consistent.stepProducer inserted
    cases RingBuffer.stepProducer_effect inserted with
    | silent history item =>
        have inserting := lent.inserting
        rw [← item] at inserting
        exact ⟨lent.silent consistent history inserting, .inr item⟩
    | refuse at_ history =>
        have full := (lent.consistent.operation consistent history).refuse_full
        exact absurd full (Nat.ne_of_lt (lent.room isHeld))

/-- When `emplace` returns, it has added the index: there is room for all. -/
theorem LentTo.stepInsert_some {result : Bool} (lent : LentTo pool holders)
    (atIndex : ∀ other, pool.freeIndices.producer.item = some other → other = index)
    (perm : holders.Perm (index :: rest))
    (stepped : pool.stepInsert index = some (next, some result)) :
    result = true ∧ LentTo next rest ∧ next.freeIndices.producer = .idle := by
  obtain ⟨same, ⟨-, impossible⟩ | inserted⟩ := stepInsert_cases stepped
  · cases impossible
  · rw [same]
    have consistent := lent.consistent.stepProducer inserted
    cases RingBuffer.stepProducer_effect inserted with
    | full at_ history idle returned =>
        have refused := consistent.refused (returned ▸ List.mem_append_right _ List.mem_cons_self)
        rw [history] at refused
        exact absurd refused (lent.accepting _)
    | push at_ history idle =>
        have item := congrArg Producer.item at_
        obtain ⟨-, isCleared⟩ := lent.inserting _ item
        have grown := (lent.consistent.operation consistent history).push_eq
        have lending := lent.lending.giveBack (atIndex _ item ▸ perm) isCleared
        rw [← grown] at lending
        refine ⟨rfl, lent.log consistent history nofun lending ?_, idle⟩
        rw [idle]
        nofun

theorem acquire_frame (called : pool.acquire = some next) :
    next.objects = pool.objects ∧
      next.freeIndices.producer = pool.freeIndices.producer ∧
        next.freeIndices.taken = pool.freeIndices.taken := by
  obtain ⟨popping, same⟩ := acquire_eq_some called
  obtain ⟨-, entered⟩ := RingBuffer.pop_eq_some popping
  rw [same, entered]
  exact ⟨rfl, rfl, rfl⟩

theorem stepAcquire_frame {result : Option (Option Nat)}
    (stepped : pool.stepAcquire = some (next, result)) :
    next.objects = pool.objects ∧
      next.freeIndices.producer = pool.freeIndices.producer ∧
        next.freeIndices.taken = pool.freeIndices.taken ++ result.toList := by
  obtain ⟨popping, same⟩ := stepAcquire_eq_some stepped
  rw [same]
  refine ⟨rfl, RingBuffer.stepConsumer_producer popping, ?_⟩
  cases RingBuffer.stepConsumer_effect popping with
  | silent history taken | miss at_ history taken =>
      exact taken.trans (List.append_nil _).symm
  | nothing at_ history taken | pop at_ history taken => exact taken

theorem stepInsert_frame {result : Option Bool}
    (stepped : pool.stepInsert index = some (next, result)) :
    next.objects = pool.objects ∧
      next.freeIndices.consumer = pool.freeIndices.consumer ∧
        next.freeIndices.taken = pool.freeIndices.taken := by
  obtain ⟨same, ⟨called, -⟩ | inserted⟩ := stepInsert_cases stepped
  · obtain ⟨-, entered⟩ := RingBuffer.emplace_eq_some called
    rw [same, entered]
    exact ⟨rfl, rfl, rfl⟩
  · rw [same]
    exact ⟨rfl, RingBuffer.stepProducer_consumer inserted⟩

theorem acquire_ring (called : pool.acquire = some next) :
    RingBuffer.step id pool.freeIndices .pop = some next.freeIndices :=
  (acquire_eq_some called).1

theorem stepAcquire_ring {result : Option (Option Nat)}
    (stepped : pool.stepAcquire = some (next, result)) :
    RingBuffer.step id pool.freeIndices .consumer = some next.freeIndices :=
  Option.map_eq_some_iff.mpr ⟨_, (stepAcquire_eq_some stepped).1, rfl⟩

theorem stepInsert_ring {result : Option Bool}
    (stepped : pool.stepInsert index = some (next, result)) :
    ∃ event, RingBuffer.step id pool.freeIndices event = some next.freeIndices := by
  obtain ⟨-, ⟨called, -⟩ | inserted⟩ := stepInsert_cases stepped
  · exact ⟨.emplace index, called⟩
  · exact ⟨.producer, Option.map_eq_some_iff.mpr ⟨_, inserted, rfl⟩⟩

/-- The pool after some turns of the loop of the constructor. -/
structure Filled (pool : BookUpdatePool capacity) (count : Nat) : Prop where
  consistent : pool.freeIndices.Consistent
  objects : pool.objects = List.replicate capacity.value {}
  unread : pool.freeIndices.unread = List.range count
  history : pool.freeIndices.history = (List.range count).map .push
  idle : pool.freeIndices.producer = .idle ∧ pool.freeIndices.consumer = .idle
  taken : pool.freeIndices.taken = []
  counter : pool.acquiredCount = 0

theorem Filled.fill {count : Nat} (filled : Filled pool count) (lt : count < capacity.value) :
    ∃ next, pool.fill count = some next ∧ Filled next (count + 1) := by
  have room : pool.freeIndices.unread.length < capacity.value := by
    rw [filled.unread, List.length_range]
    exact lt
  obtain ⟨freeIndices, added, idle, consumer, taken, history⟩ :=
    filled.consistent.emplaceAlone_eq filled.idle.1 room count
  have consistent := filled.consistent.emplaceAlone added
  refine ⟨{ pool with freeIndices }, by rw [BookUpdatePool.fill, added], ?_⟩
  constructor
  case consistent => exact consistent
  case objects => exact filled.objects
  case unread =>
    rw [(filled.consistent.operation consistent history).push_eq, filled.unread, List.range_succ]
  case history =>
    rw [history, filled.history, List.range_succ, List.map_append]
    rfl
  case idle => exact ⟨idle, consumer.trans filled.idle.2⟩
  case taken => exact taken.trans filled.taken
  case counter => exact filled.counter

/-- The constructor does not terminate the program, and all indices are free. -/
theorem exists_construct (capacity : Capacity) :
    ∃ pool, construct capacity = some pool ∧ Filled pool capacity.value := by
  have turns : ∀ count ≤ capacity.value, ∃ pool : BookUpdatePool capacity,
      (List.range count).foldlM BookUpdatePool.fill
        { objects := List.replicate capacity.value {}
          freeIndices := .empty (Vector.replicate capacity.value 0) } = some pool ∧
        Filled pool count := by
    intro count
    induction count with
    | zero =>
        intro _
        exact ⟨_, rfl, RingBuffer.empty_consistent _, rfl, rfl, rfl, ⟨rfl, rfl⟩, rfl, rfl⟩
    | succ count ih =>
        intro le
        obtain ⟨pool, built, filled⟩ := ih (Nat.le_of_succ_le le)
        obtain ⟨next, added, filledNext⟩ := filled.fill le
        refine ⟨next, ?_, filledNext⟩
        simp [List.range_succ, built, added]
  exact turns capacity.value (Nat.le_refl _)

theorem Filled.lentTo (filled : Filled pool capacity.value) : LentTo pool [] := by
  constructor
  case consistent => exact filled.consistent
  case lending =>
    constructor
    case partition =>
      rw [List.append_nil, filled.unread, filled.objects, List.length_replicate]
    case blank =>
      intro index isFree
      rw [filled.unread, List.mem_range] at isFree
      rw [filled.objects]
      exact List.getElem?_replicate_of_lt isFree
  case sized => rw [filled.objects, List.length_replicate]
  case inserting =>
    rw [filled.idle.1]
    nofun
  case accepting =>
    intro index refused
    rw [filled.history] at refused
    obtain ⟨_, -, impossible⟩ := List.mem_map.mp refused
    cases impossible
  case counter => exact filled.counter

end BookUpdatePool

end BookUpdatesScspPool

end Pools

end ExchangeConnectivity
