import ExchangeConnectivity.LockFreePool

/-!
# The leases of the lock-free pool

A program in which one thread acquires and one other thread resets leases,
while leases are moved anywhere.  Every index is at every moment in one place,
whatever the order of the steps of the two threads.
-/

namespace ExchangeConnectivity

open ActionRuns BoundedQueue LentObjects

namespace Pools

namespace BookUpdatesScspPool

/-- Where the acquiring thread stands: in no call, in `pop`, or with its result. -/
inductive Acquiring
  | idle
  | popping
  | popped (result : Option Nat)
  deriving DecidableEq

/-- The index a call of `acquire` has in its hands. -/
def Acquiring.index : Acquiring → Option Nat
  | .popped result => result
  | _ => none

/-- What `acquire` returns. -/
def leaseFor : Option Nat → Lease
  | none => {}
  | some index => { pool := true, index }

/-- `resetting` is the lease the other thread is resetting, and `acquired` logs
what the calls of `acquire` have returned. -/
structure Program (capacity : Capacity) where
  pool : BookUpdatePool capacity
  leases : List LeaseState := []
  acquiring : Acquiring := .idle
  resetting : Option Nat := none
  terminated : Bool := false
  acquired : List (Option Nat) := []

/-- `acquire` and `acquiring` are the call of `acquire` and its next step,
`release` is the next step of the reset under way, and `write` any change of an
object through its lease. -/
inductive Event
  | acquire
  | acquiring
  | construct
  | moveConstruct (other : Nat)
  | moveAssign (target other : Nat)
  | destroy (target : Nat)
  | write (address : Nat) (update : BookUpdate)
  | release

variable {capacity : Capacity}

def acquire (program : Program capacity) : Option (Program capacity) :=
  match program.acquiring with
  | .idle => program.pool.acquire.map fun pool => { program with pool, acquiring := .popping }
  | _ => none

def stepAcquire (program : Program capacity) : Option (Program capacity) :=
  match program.acquiring with
  | .idle => none
  | .popping =>
      program.pool.stepAcquire.map fun (pool, returned) =>
        match returned with
        | none => { program with pool }
        | some result => { program with pool, acquiring := .popped result }
  | .popped result =>
      some
        { program with
          leases := program.leases ++ [.idle (leaseFor result)]
          acquiring := .idle
          acquired := program.acquired ++ [result] }

/-- The leases after an operation on `target`, which goes to the resetting
thread if the operation has to reset it. -/
def operate (program : Program capacity) (target : Nat) (leases : List LeaseState) :
    Option (Program capacity) :=
  match leases[target]? with
  | some (.resetting _ _ _) =>
      if program.resetting.isSome then none
      else some { program with leases, resetting := some target }
  | _ => some { program with leases }

def writeThrough (program : Program capacity) (address : Nat) (update : BookUpdate) :
    Option (Program capacity) :=
  match idleAt program.leases address with
  | some { pool := true, index } =>
      let objects := program.pool.objects.set index update
      some { program with pool := { program.pool with objects } }
  | _ => none

def stepRelease (program : Program capacity) : Option (Program capacity) :=
  match program.resetting with
  | none => none
  | some address =>
      match program.leases[address]? with
      | some (.resetting index .clear purpose) =>
          some
            { program with
              pool := program.pool.clear index
              leases := program.leases.set address (.resetting index .insert purpose) }
      | some (.resetting index .insert purpose) =>
          (program.pool.stepInsert index).map fun (pool, returned) =>
            match returned with
            | none => { program with pool }
            | some true =>
                { program with
                  pool
                  leases := program.leases.set address (.resetting index .done purpose) }
            | some false => { program with pool, terminated := true }
      | some (.resetting _ .done purpose) =>
          some
            { program with
              leases := finish program.leases address purpose
              resetting := none }
      | _ => none

def act (program : Program capacity) : Event → Option (Program capacity)
  | .acquire => acquire program
  | .acquiring => stepAcquire program
  | .construct => some { program with leases := construct program.leases }
  | .moveConstruct other =>
      (moveConstruct program.leases other).map fun leases => { program with leases }
  | .moveAssign target other =>
      (moveAssign program.leases target other).bind (operate program target)
  | .destroy target => (destroy program.leases target).bind (operate program target)
  | .write address update => writeThrough program address update
  | .release => stepRelease program

/-- Nothing happens after `std::terminate`. -/
def step (program : Program capacity) (event : Event) : Option (Program capacity) :=
  if program.terminated then none else act program event

theorem step_eq_act {program : Program capacity} (running : program.terminated = false)
    (event : Event) : step program event = act program event := by
  rw [step, running]
  rfl

/-- The indices that are not in the ring buffer. -/
def Program.holders (program : Program capacity) : List Nat :=
  program.acquiring.index.toList ++ held program.leases

/-- The result of a call of `acquire` that has not returned it yet. -/
def Program.pending (program : Program capacity) : List (Option Nat) :=
  match program.acquiring with
  | .popped result => [result]
  | _ => []

structure Placed (program : Program capacity) : Prop where
  lent : program.pool.LentTo program.holders
  cleared : Inserting (fun index => program.pool.objects[index]? = some {}) program.leases
  popped : ∀ index, program.acquiring.index = some index →
    program.pool.objects[index]? = some {}
  inserting : ∀ index, program.pool.freeIndices.producer.item = some index →
    ∃ address purpose, program.resetting = some address ∧
      program.leases[address]? = some (.resetting index .insert purpose)
  results : program.pool.freeIndices.taken = program.acquired ++ program.pending
  running : program.terminated = false

section Steps

variable {program next : Program capacity}

theorem held_leaseFor (leases : List LeaseState) (result : Option Nat) :
    held (leases ++ [.idle (leaseFor result)]) = held leases ++ result.toList := by
  rw [held, List.filterMap_append]
  cases result <;> rfl

theorem Placed.acquire (placed : Placed program) (called : acquire program = some next) :
    Placed next := by
  rw [BookUpdatesScspPool.acquire] at called
  split at called
  next idle =>
    obtain ⟨pool, popping, rfl⟩ := Option.map_eq_some_iff.mp called
    obtain ⟨objects, producer, taken⟩ := BookUpdatePool.acquire_frame popping
    have lent := placed.lent
    have results := placed.results
    rw [Program.holders, idle] at lent
    rw [Program.pending, idle] at results
    constructor
    case lent => exact lent.acquire popping
    case cleared =>
      rw [objects]
      exact placed.cleared
    case popped => nofun
    case inserting =>
      rw [producer]
      exact placed.inserting
    case results => exact taken.trans results
    case running => exact placed.running
  next => cases called

theorem Placed.stepAcquire (placed : Placed program)
    (stepped : stepAcquire program = some next) : Placed next := by
  have lent := placed.lent
  have results := placed.results
  rw [BookUpdatesScspPool.stepAcquire] at stepped
  split at stepped
  next => cases stepped
  next popping =>
    obtain ⟨⟨pool, returned⟩, popped, rfl⟩ := Option.map_eq_some_iff.mp stepped
    obtain ⟨objects, producer, taken⟩ := BookUpdatePool.stepAcquire_frame popped
    have cleared := placed.cleared
    have inserting := placed.inserting
    rw [Program.holders, popping] at lent
    rw [Program.pending, popping, List.append_nil] at results
    rw [← objects] at cleared
    rw [← producer] at inserting
    rw [results] at taken
    cases returned with
    | none =>
        constructor
        case lent =>
          rw [Program.holders, popping]
          exact lent.stepAcquire popped rfl
        case cleared => exact cleared
        case popped =>
          rw [popping]
          nofun
        case inserting => exact inserting
        case results =>
          rw [Program.pending, popping]
          exact taken
        case running => exact placed.running
    | some result =>
        have nowLent : pool.LentTo (result.toList ++ held program.leases) ∧
            ∀ index, result = some index → pool.objects[index]? = some {} := by
          cases result with
          | none => exact ⟨lent.stepAcquire popped rfl, nofun⟩
          | some index =>
              obtain ⟨lent, isCleared⟩ := lent.stepAcquire_some popped
              exact ⟨lent, by rintro _ ⟨⟩; exact isCleared⟩
        exact ⟨nowLent.1, cleared, nowLent.2, inserting, taken, placed.running⟩
  next result popped =>
    cases stepped
    rw [Program.holders, popped] at lent
    rw [Program.pending, popped] at results
    constructor
    case lent =>
      apply lent.of_perm
      rw [Program.holders, held_leaseFor]
      change (held program.leases ++ result.toList).Perm (result.toList ++ held program.leases)
      exact List.perm_append_comm
    case cleared =>
      apply placed.cleared.append
      cases result <;> rfl
    case popped => nofun
    case inserting =>
      intro index found
      obtain ⟨address, purpose, resetting, foundLease⟩ := placed.inserting index found
      exact ⟨address, purpose, resetting, resetting_append foundLease⟩
    case results => exact results.trans (List.append_nil _).symm
    case running => exact placed.running

theorem Placed.write (placed : Placed program) {address : Nat} {update : BookUpdate}
    (written : writeThrough program address update = some next) : Placed next := by
  rw [writeThrough] at written
  split at written
  next index idle =>
    cases written
    have found := (idleAt_eq_some idle).1
    have isHeld : index ∈ held program.leases := mem_held found rfl
    have nodup := (List.nodup_append.mp placed.lent.lending.nodup).2.1
    obtain ⟨-, nodupHeld, apart⟩ := List.nodup_append.mp nodup
    constructor
    case lent =>
      apply placed.lent.write (List.mem_append_right _ isHeld)
      intro inserting
      obtain ⟨position, purpose, -, foundReset⟩ := placed.inserting index inserting
      exact index_ne_of_inserting nodupHeld found rfl (List.mem_of_getElem? foundReset) rfl rfl
    case cleared =>
      intro state member other inserting
      have different := index_ne_of_inserting nodupHeld found rfl member inserting
      exact (List.getElem?_set_ne different).trans (placed.cleared state member other inserting)
    case popped =>
      intro other popped
      have different : index ≠ other := by
        rintro rfl
        exact apart index (Option.mem_toList.mpr popped) index isHeld rfl
      exact (List.getElem?_set_ne different).trans (placed.popped other popped)
    case inserting => exact placed.inserting
    case results => exact placed.results
    case running => exact placed.running
  next => cases written

/-- The leases change, and each index stays out of the ring buffer. -/
theorem Placed.of_leases (placed : Placed program) {leases : List LeaseState}
    {resetting : Option Nat}
    (perm : (held leases).Perm (held program.leases))
    (cleared : ∀ {property : Nat → Prop}, Inserting property program.leases →
      Inserting property leases)
    (inserting : ∀ index address purpose, program.resetting = some address →
      program.leases[address]? = some (LeaseState.resetting index .insert purpose) →
        resetting = some address ∧
          leases[address]? = some (LeaseState.resetting index .insert purpose)) :
    Placed { program with leases, resetting } where
  lent := placed.lent.of_perm (perm.append_left _)
  cleared := cleared placed.cleared
  popped := placed.popped
  inserting := by
    intro index found
    obtain ⟨address, purpose, here, foundLease⟩ := placed.inserting index found
    exact ⟨address, purpose, inserting index address purpose here foundLease⟩
  results := placed.results
  running := placed.running

theorem Placed.operate (placed : Placed program) {target : Nat} {leases : List LeaseState}
    (perm : (held leases).Perm (held program.leases))
    (cleared : ∀ {property : Nat → Prop}, Inserting property program.leases →
      Inserting property leases)
    (kept : ∀ {address index : Nat} {purpose : Purpose},
      program.leases[address]? = some (LeaseState.resetting index .insert purpose) →
        leases[address]? = some (LeaseState.resetting index .insert purpose))
    (operated : operate program target leases = some next) : Placed next := by
  rw [BookUpdatesScspPool.operate] at operated
  split at operated
  next =>
    split at operated
    next => cases operated
    next free =>
      cases operated
      apply placed.of_leases perm cleared
      intro index address purpose here
      rw [here] at free
      exact absurd rfl free
  next =>
    cases operated
    exact placed.of_leases perm cleared fun index address purpose here found => ⟨here, kept found⟩

section Release

variable {address index : Nat} {purpose : Purpose} {pool : BookUpdatePool capacity}

/-- The index being inserted is that of the lease being reset. -/
theorem Placed.inserting_eq {phase : Phase} (placed : Placed program)
    (resetting : program.resetting = some address)
    (found : program.leases[address]? = some (.resetting index phase purpose)) {other : Nat}
    (item : program.pool.freeIndices.producer.item = some other) :
    phase = .insert ∧ other = index := by
  obtain ⟨position, otherPurpose, here, foundOther⟩ := placed.inserting other item
  rw [resetting, Option.some_inj] at here
  rw [← here, found] at foundOther
  cases foundOther
  exact ⟨rfl, rfl⟩

theorem Placed.clear (placed : Placed program) (resetting : program.resetting = some address)
    (found : program.leases[address]? = some (.resetting index .clear purpose)) :
    Placed
      { program with
        pool := program.pool.clear index
        leases := program.leases.set address (.resetting index .insert purpose) } := by
  have isHeld : index ∈ program.holders := List.mem_append_right _ (mem_held found rfl)
  have lent := placed.lent.clear isHeld
  constructor
  case lent => exact lent.of_perm ((held_clear found).append_left _)
  case cleared =>
    have others : Inserting (fun other => (program.pool.clear index).objects[other]? = some {})
        program.leases := placed.cleared.imp fun _ => BookUpdatePool.clear_getElem
    apply others.set
    rintro _ ⟨⟩
    exact program.pool.clear_getElem_self (placed.lent.lending.lt_of_held isHeld)
  case popped => exact fun other popped => BookUpdatePool.clear_getElem (placed.popped other popped)
  case inserting =>
    intro other item
    cases (placed.inserting_eq resetting found item).1
  case results => exact placed.results
  case running => exact placed.running

theorem Placed.stepInsert (placed : Placed program) (resetting : program.resetting = some address)
    (found : program.leases[address]? = some (.resetting index .insert purpose))
    (inserted : program.pool.stepInsert index = some (pool, none)) :
    Placed { program with pool } := by
  have isHeld : index ∈ program.holders := List.mem_append_right _ (mem_held found rfl)
  obtain ⟨objects, -, taken⟩ := BookUpdatePool.stepInsert_frame inserted
  obtain ⟨lent, item⟩ := placed.lent.stepInsert isHeld (placed.cleared.get found) inserted
  constructor
  case lent => exact lent
  case cleared =>
    rw [objects]
    exact placed.cleared
  case popped =>
    rw [objects]
    exact placed.popped
  case inserting =>
    intro other otherItem
    rcases item with item | item
    · rw [item] at otherItem
      cases otherItem
      exact ⟨address, purpose, resetting, found⟩
    · rw [item] at otherItem
      exact placed.inserting other otherItem
  case results => exact taken.trans placed.results
  case running => exact placed.running

theorem Placed.inserted {result : Bool} (placed : Placed program)
    (resetting : program.resetting = some address)
    (found : program.leases[address]? = some (.resetting index .insert purpose))
    (inserted : program.pool.stepInsert index = some (pool, some result)) :
    result = true ∧
      Placed
        { program with
          pool
          leases := program.leases.set address (.resetting index .done purpose) } := by
  obtain ⟨objects, -, taken⟩ := BookUpdatePool.stepInsert_frame inserted
  have holders : program.holders.Perm
      (index :: (program.acquiring.index.toList ++
        held (program.leases.set address (.resetting index .done purpose)))) :=
    ((held_insert found).append_left _).trans List.perm_middle
  obtain ⟨added, lent, idle⟩ := placed.lent.stepInsert_some
    (fun other item => (placed.inserting_eq resetting found item).2) holders inserted
  refine ⟨added, ?_⟩
  constructor
  case lent => exact lent
  case cleared =>
    rw [objects]
    exact placed.cleared.set_calm rfl
  case popped =>
    rw [objects]
    exact placed.popped
  case inserting =>
    rw [idle]
    nofun
  case results => exact taken.trans placed.results
  case running => exact placed.running

end Release

theorem Placed.stepRelease (placed : Placed program)
    (stepped : stepRelease program = some next) : Placed next := by
  rw [BookUpdatesScspPool.stepRelease] at stepped
  split at stepped
  next => cases stepped
  next address resetting =>
    split at stepped
    next index purpose found =>
      cases stepped
      exact placed.clear resetting found
    next index purpose found =>
      obtain ⟨⟨pool, returned⟩, inserted, rfl⟩ := Option.map_eq_some_iff.mp stepped
      cases returned with
      | none => exact placed.stepInsert resetting found inserted
      | some result =>
          obtain ⟨rfl, insertedAll⟩ := placed.inserted resetting found inserted
          exact insertedAll
    next index purpose found =>
      cases stepped
      apply placed.of_leases (held_finish found) (·.finish)
      intro other otherAddress otherPurpose here foundOther
      rw [resetting, Option.some_inj] at here
      rw [← here, found] at foundOther
      cases foundOther
    next => cases stepped

theorem Placed.step (placed : Placed program) {event : Event}
    (stepped : step program event = some next) : Placed next := by
  rw [step_eq_act placed.running] at stepped
  cases event with
  | acquire => exact placed.acquire stepped
  | acquiring => exact placed.stepAcquire stepped
  | construct =>
      cases stepped
      exact placed.of_leases (.of_eq (held_construct program.leases)) (·.append rfl)
        fun index address purpose here found => ⟨here, resetting_append found⟩
  | moveConstruct other =>
      obtain ⟨leases, moved, rfl⟩ := Option.map_eq_some_iff.mp stepped
      exact placed.of_leases (held_moveConstruct moved) (·.moveConstruct moved)
        fun index address purpose here found => ⟨here, resetting_moveConstruct moved found⟩
  | moveAssign target other =>
      obtain ⟨leases, assigned, operated⟩ := Option.bind_eq_some_iff.mp stepped
      exact placed.operate (held_moveAssign assigned) (·.moveAssign assigned)
        (resetting_moveAssign assigned) operated
  | destroy target =>
      obtain ⟨leases, destroyed, operated⟩ := Option.bind_eq_some_iff.mp stepped
      exact placed.operate (held_destroy destroyed) (·.destroy destroyed)
        (resetting_destroy destroyed) operated
  | write address update => exact placed.write stepped
  | release => exact placed.stepRelease stepped

/-- A step of the program is a step of its ring buffer or does not touch it. -/
theorem step_ring {event : Event} (stepped : step program event = some next) :
    next.pool.freeIndices = program.pool.freeIndices ∨
      ∃ ringEvent, RingBuffer.step id program.pool.freeIndices ringEvent =
        some next.pool.freeIndices := by
  have operated : ∀ {target : Nat} {leases : List LeaseState},
      operate program target leases = some next →
        next.pool.freeIndices = program.pool.freeIndices := by
    intro target leases operated
    rw [operate] at operated
    split at operated
    next => split at operated <;> cases operated; rfl
    next => cases operated; rfl
  rw [step] at stepped
  split at stepped
  next => cases stepped
  next =>
    cases event with
    | acquire =>
        simp only [act, acquire] at stepped
        split at stepped
        next =>
          obtain ⟨pool, called, rfl⟩ := Option.map_eq_some_iff.mp stepped
          exact .inr ⟨_, BookUpdatePool.acquire_ring called⟩
        next => cases stepped
    | acquiring =>
        simp only [act, stepAcquire] at stepped
        split at stepped
        next => cases stepped
        next =>
          obtain ⟨⟨pool, returned⟩, popping, rfl⟩ := Option.map_eq_some_iff.mp stepped
          cases returned <;> exact .inr ⟨_, BookUpdatePool.stepAcquire_ring popping⟩
        next => cases stepped; exact .inl rfl
    | construct => cases stepped; exact .inl rfl
    | moveConstruct other =>
        obtain ⟨leases, -, rfl⟩ := Option.map_eq_some_iff.mp stepped
        exact .inl rfl
    | moveAssign target other =>
        obtain ⟨leases, -, assigned⟩ := Option.bind_eq_some_iff.mp stepped
        exact .inl (operated assigned)
    | destroy target =>
        obtain ⟨leases, -, destroyed⟩ := Option.bind_eq_some_iff.mp stepped
        exact .inl (operated destroyed)
    | write address update =>
        simp only [act, writeThrough] at stepped
        split at stepped <;> cases stepped
        exact .inl rfl
    | release =>
        simp only [act, stepRelease] at stepped
        split at stepped
        next => cases stepped
        next =>
          split at stepped
          next => cases stepped; exact .inl rfl
          next =>
            obtain ⟨⟨pool, returned⟩, inserted, rfl⟩ := Option.map_eq_some_iff.mp stepped
            have ring := BookUpdatePool.stepInsert_ring inserted
            rcases returned with _ | _ | _ <;> exact .inr ring
          next => cases stepped; exact .inl rfl
          next => cases stepped

/-- What a step does to the ring buffer is nothing or one operation of a queue. -/
theorem Placed.simulates (placed : Placed program) {event : Event}
    (stepped : BookUpdatesScspPool.step program event = some next) :
    program.pool.freeIndices.Simulates next.pool.freeIndices := by
  rcases step_ring stepped with same | ⟨ringEvent, ringStep⟩
  · rw [same]
    exact .inl ⟨rfl, rfl⟩
  · exact placed.lent.consistent.simulates ringStep

/-- Each index is in the ring buffer, with the call of `acquire`, of one live
lease, or in the middle of one release; `acquire` returns what the consumer of
the queue gets, and its objects are cleared. -/
structure Partitioned (program : Program capacity) : Prop where
  partition :
    (program.pool.freeIndices.unread ++ program.acquiring.index.toList ++ live program.leases ++
      releasing program.leases).Perm (List.range capacity.value)
  refines : program.pool.freeIndices.RefinesQueue
  results : program.pool.freeIndices.taken = program.acquired ++ program.pending
  cleared : ∀ index, program.acquiring.index = some index →
    ∃ update, program.pool.objects[index]? = some update ∧ update.Cleared
  running : program.terminated = false

theorem Placed.partitioned (placed : Placed program) : Partitioned program where
  partition := by
    have partition := placed.lent.lending.partition
    rw [placed.lent.sized, Program.holders, ← List.append_assoc] at partition
    rw [List.append_assoc]
    exact ((held_perm program.leases).symm.append_left _).trans partition
  refines := placed.lent.consistent.refinesQueue
  results := placed.results
  cleared := fun index popped => ⟨_, placed.popped index popped, (BookUpdate.cleared_iff _).mpr rfl⟩
  running := placed.running

end Steps

theorem start_placed {pool : BookUpdatePool capacity} (filled : pool.Filled capacity.value) :
    Placed { pool } where
  lent := filled.lentTo
  cleared := List.forall_mem_nil _
  popped := nofun
  inserting := by
    rw [filled.idle.1]
    nofun
  results := filled.taken
  running := rfl

/-- The constructor does not terminate the program, and under every order of
the steps of the two threads each index is in one place. -/
theorem lockFreePool_partitioned (capacity : Capacity) :
    ∃ pool, BookUpdatePool.construct capacity = some pool ∧
      ∀ events program, runFrom step { pool } events = some program →
        Partitioned program ∧ ∀ event next, step program event = some next →
          program.pool.freeIndices.Simulates next.pool.freeIndices := by
  obtain ⟨pool, constructed, filled⟩ := BookUpdatePool.exists_construct capacity
  refine ⟨pool, constructed, ?_⟩
  intro events program run
  have placed : Placed program := by
    apply invariant_of_run _ run (start_placed filled)
    intro state after event before stepped
    exact before.step stepped
  exact ⟨placed.partitioned, fun _ _ stepped => placed.simulates stepped⟩

end BookUpdatesScspPool

end Pools

end ExchangeConnectivity
