import ExchangeConnectivity.ActionRuns
import ExchangeConnectivity.BookUpdates
import ExchangeConnectivity.Leases
import ExchangeConnectivity.LentObjects

/-!
# The pool under a mutex

`book_updates_pool::BookUpdatePool` of `pools/main.cpp` with the leases of any
number of threads.  What happens under the lock is one step; `release` clears
the object before it takes the lock.
-/

namespace ExchangeConnectivity

open ActionRuns LentObjects

namespace Pools

namespace BookUpdatesPool

structure BookUpdatePool where
  objects : List BookUpdate := []
  freeIndices : List Nat := []

namespace BookUpdatePool

def construct (initialCapacity : Nat) : BookUpdatePool :=
  (List.range initialCapacity).foldl
    (fun pool index =>
      { objects := pool.objects ++ [{}]
        freeIndices := pool.freeIndices ++ [index] }) {}

def acquire (pool : BookUpdatePool) : BookUpdatePool × Lease :=
  match pool.freeIndices.getLast? with
  | none =>
      ({ pool with objects := pool.objects ++ [{}] },
        { pool := true, index := pool.objects.length })
  | some index =>
      ({ pool with freeIndices := pool.freeIndices.dropLast }, { pool := true, index })

def size (pool : BookUpdatePool) : Nat :=
  pool.objects.length

def available (pool : BookUpdatePool) : Nat :=
  pool.freeIndices.length

/-- `release` before it takes the lock. -/
def clear (pool : BookUpdatePool) (index : Nat) : BookUpdatePool :=
  { pool with objects := pool.objects.modify index BookUpdate.clear }

/-- `release` under the lock. -/
def insert (pool : BookUpdatePool) (index : Nat) : BookUpdatePool :=
  { pool with freeIndices := pool.freeIndices ++ [index] }

variable {pool : BookUpdatePool} {holders rest : List Nat} {index : Nat}

/-- The objects of the pool are free or with these holders. -/
def LentTo (pool : BookUpdatePool) (holders : List Nat) : Prop :=
  Lending {} pool.objects pool.freeIndices holders

theorem construct_eq (initialCapacity : Nat) :
    construct initialCapacity =
      { objects := List.replicate initialCapacity {}
        freeIndices := List.range initialCapacity } := by
  rw [construct]
  induction initialCapacity with
  | zero => rfl
  | succ count ih =>
      rw [List.range_succ, List.foldl_append, ih]
      simp [List.replicate_succ']

theorem construct_lentTo (initialCapacity : Nat) : LentTo (construct initialCapacity) [] := by
  rw [construct_eq]
  constructor
  case partition => simp
  case blank =>
    intro index isFree
    exact List.getElem?_replicate_of_lt (List.mem_range.mp isFree)

theorem clear_objects (pool : BookUpdatePool) (index : Nat) :
    (pool.clear index).objects = pool.objects.set index {} := by
  rw [clear, List.set_eq_modify]
  rfl

/-- What has been cleared stays so when another object is. -/
theorem clear_getElem {other : Nat} (isCleared : pool.objects[other]? = some {}) :
    (pool.clear index).objects[other]? = some {} := by
  rw [clear, List.getElem?_modify, isCleared]
  split <;> rfl

theorem LentTo.grow (lent : LentTo pool holders) :
    LentTo { pool with objects := pool.objects ++ [{}] } (pool.objects.length :: holders) :=
  Lending.grow lent

/-- What `acquire` hands out was free or is new, and is cleared. -/
theorem LentTo.acquire (lent : LentTo pool holders) :
    LentTo pool.acquire.1 (pool.acquire.2.index :: holders) ∧
      pool.acquire.1.objects[pool.acquire.2.index]? = some {} := by
  rw [BookUpdatePool.acquire]
  split
  next => exact ⟨lent.grow, List.getElem?_concat_length⟩
  next index last =>
    have parts := List.dropLast_append_getLast? index last
    have frees : pool.freeIndices.Perm (index :: pool.freeIndices.dropLast) := by
      have moved := List.perm_append_singleton index pool.freeIndices.dropLast
      rwa [parts] at moved
    exact ⟨Lending.lend lent frees, lent.blank index (List.mem_of_getLast? last)⟩

theorem acquire_owned (pool : BookUpdatePool) : pool.acquire.2.pool = true := by
  rw [BookUpdatePool.acquire]
  split <;> rfl

theorem acquire_length_le (pool : BookUpdatePool) :
    pool.objects.length ≤ pool.acquire.1.objects.length := by
  rw [BookUpdatePool.acquire]
  split
  next =>
    rw [List.length_append]
    exact Nat.le_add_right _ _
  next => exact Nat.le_refl _

theorem acquire_length_le_succ (pool : BookUpdatePool) :
    pool.acquire.1.objects.length ≤ pool.objects.length + 1 := by
  rw [BookUpdatePool.acquire]
  split
  next => exact Nat.le_of_eq List.length_append
  next => exact Nat.le_add_right _ _

/-- `acquire` leaves the objects that others hold alone. -/
theorem acquire_getElem {update : BookUpdate} (found : pool.objects[index]? = some update) :
    pool.acquire.1.objects[index]? = some update := by
  rw [BookUpdatePool.acquire]
  split
  next =>
    obtain ⟨bound, -⟩ := List.getElem?_eq_some_iff.mp found
    exact (List.getElem?_append_left bound).trans found
  next => exact found

theorem LentTo.clear (lent : LentTo pool holders) (isHeld : index ∈ holders) :
    LentTo (pool.clear index) holders := by
  rw [LentTo, clear_objects]
  exact Lending.write lent isHeld

theorem LentTo.insert (lent : LentTo pool holders) (perm : holders.Perm (index :: rest))
    (isCleared : pool.objects[index]? = some {}) : LentTo (pool.insert index) rest :=
  Lending.giveBack lent perm isCleared

end BookUpdatePool

structure Program where
  pool : BookUpdatePool
  leases : List LeaseState := []

/-- What the threads do: `write` is any change of an object through its lease,
and `release` the next step of the reset of a lease. -/
inductive Event
  | acquire
  | construct
  | moveConstruct (other : Nat)
  | moveAssign (target other : Nat)
  | destroy (target : Nat)
  | write (address : Nat) (update : BookUpdate)
  | release (address : Nat)

def writeThrough (program : Program) (address : Nat) (update : BookUpdate) : Option Program :=
  match idleAt program.leases address with
  | some { pool := true, index } =>
      let objects := program.pool.objects.set index update
      some { program with pool := { program.pool with objects } }
  | _ => none

def stepRelease (program : Program) (address : Nat) : Option Program :=
  match program.leases[address]? with
  | some (.resetting index .clear purpose) =>
      some
        { pool := program.pool.clear index
          leases := program.leases.set address (.resetting index .insert purpose) }
  | some (.resetting index .insert purpose) =>
      some
        { pool := program.pool.insert index
          leases := program.leases.set address (.resetting index .done purpose) }
  | some (.resetting _ .done purpose) =>
      some { program with leases := finish program.leases address purpose }
  | _ => none

def step (program : Program) : Event → Option Program
  | .acquire =>
      let (pool, lease) := program.pool.acquire
      some { pool, leases := program.leases ++ [.idle lease] }
  | .construct => some { program with leases := construct program.leases }
  | .moveConstruct other =>
      (moveConstruct program.leases other).map fun leases => { program with leases }
  | .moveAssign target other =>
      (moveAssign program.leases target other).map fun leases => { program with leases }
  | .destroy target =>
      (destroy program.leases target).map fun leases => { program with leases }
  | .write address update => writeThrough program address update
  | .release address => stepRelease program address

def start (initialCapacity : Nat) : Program where
  pool := .construct initialCapacity

structure Owned (program : Program) : Prop where
  lent : program.pool.LentTo (held program.leases)
  cleared : Inserting (fun index => program.pool.objects[index]? = some {}) program.leases

theorem start_owned (initialCapacity : Nat) : Owned (start initialCapacity) where
  lent := BookUpdatePool.construct_lentTo initialCapacity
  cleared := List.forall_mem_nil _

theorem start_length (initialCapacity : Nat) :
    (start initialCapacity).pool.objects.length = initialCapacity := by
  rw [start, BookUpdatePool.construct_eq, List.length_replicate]

section Steps

variable {program next : Program} {address : Nat}

theorem Owned.acquire (owned : Owned program) :
    Owned
      { pool := program.pool.acquire.1
        leases := program.leases ++ [.idle program.pool.acquire.2] } where
  lent := by
    have full := idle_held (BookUpdatePool.acquire_owned program.pool)
    have added : (held (program.leases ++ [.idle program.pool.acquire.2])).Perm
        (program.pool.acquire.2.index :: held program.leases) := by
      rw [held, List.filterMap_append, List.filterMap_cons_some full]
      exact List.perm_append_singleton _ _
    exact Lending.of_perm owned.lent.acquire.1 (.refl _) added
  cleared := by
    have kept : Inserting (fun index => program.pool.acquire.1.objects[index]? = some {})
        program.leases := fun state member index inserting =>
      BookUpdatePool.acquire_getElem (owned.cleared state member index inserting)
    exact kept.append rfl

theorem Owned.write (owned : Owned program) {update : BookUpdate}
    (written : writeThrough program address update = some next) : Owned next := by
  rw [writeThrough] at written
  split at written
  next index idle =>
    cases written
    have found := (idleAt_eq_some idle).1
    have isHeld : index ∈ held program.leases := mem_held found rfl
    have nodup := (List.nodup_append.mp (Lending.nodup owned.lent)).2.1
    constructor
    case lent => exact Lending.write owned.lent isHeld
    case cleared =>
      intro state member other inserting
      have different := index_ne_of_inserting nodup found rfl member inserting
      rw [List.getElem?_set_ne different]
      exact owned.cleared state member other inserting
  next => cases written

theorem Owned.stepRelease (owned : Owned program)
    (stepped : stepRelease program address = some next) : Owned next := by
  rw [BookUpdatesPool.stepRelease] at stepped
  split at stepped
  next index purpose found =>
    cases stepped
    have isHeld : index ∈ held program.leases := mem_held found rfl
    constructor
    case lent =>
      exact Lending.of_perm (owned.lent.clear isHeld) (.refl _) (held_clear found)
    case cleared =>
      have isCleared : (program.pool.clear index).objects[index]? = some {} := by
        rw [BookUpdatePool.clear_objects,
          List.getElem?_set_self (Lending.lt_of_held owned.lent isHeld)]
      have others : Inserting (fun other => (program.pool.clear index).objects[other]? = some {})
          program.leases := owned.cleared.imp fun _ => BookUpdatePool.clear_getElem
      apply others.set
      rintro _ ⟨⟩
      exact isCleared
  next index purpose found =>
    cases stepped
    exact ⟨owned.lent.insert (held_insert found) (owned.cleared.get found),
      owned.cleared.set_calm rfl⟩
  next index purpose found =>
    cases stepped
    exact ⟨Lending.of_perm owned.lent (.refl _) (held_finish found), owned.cleared.finish⟩
  next => cases stepped

theorem Owned.step (owned : Owned program) {event : Event}
    (stepped : step program event = some next) : Owned next := by
  cases event with
  | acquire =>
      cases stepped
      exact owned.acquire
  | construct =>
      cases stepped
      exact ⟨(held_construct program.leases).symm ▸ owned.lent, owned.cleared.append rfl⟩
  | moveConstruct other =>
      obtain ⟨leases, moved, rfl⟩ := Option.map_eq_some_iff.mp stepped
      exact ⟨Lending.of_perm owned.lent (.refl _) (held_moveConstruct moved),
        owned.cleared.moveConstruct moved⟩
  | moveAssign target other =>
      obtain ⟨leases, assigned, rfl⟩ := Option.map_eq_some_iff.mp stepped
      exact ⟨Lending.of_perm owned.lent (.refl _) (held_moveAssign assigned),
        owned.cleared.moveAssign assigned⟩
  | destroy target =>
      obtain ⟨leases, destroyed, rfl⟩ := Option.map_eq_some_iff.mp stepped
      exact ⟨Lending.of_perm owned.lent (.refl _) (held_destroy destroyed),
        owned.cleared.destroy destroyed⟩
  | write address update => exact owned.write stepped
  | release address => exact owned.stepRelease stepped

/-- Only `acquire` changes how many objects there are. -/
theorem step_length_of_ne_acquire {event : Event} (stepped : step program event = some next)
    (noAcquire : event ≠ .acquire) :
    next.pool.objects.length = program.pool.objects.length := by
  cases event with
  | acquire => exact absurd rfl noAcquire
  | construct => cases stepped; rfl
  | moveConstruct other =>
      obtain ⟨leases, -, rfl⟩ := Option.map_eq_some_iff.mp stepped
      rfl
  | moveAssign target other =>
      obtain ⟨leases, -, rfl⟩ := Option.map_eq_some_iff.mp stepped
      rfl
  | destroy target =>
      obtain ⟨leases, -, rfl⟩ := Option.map_eq_some_iff.mp stepped
      rfl
  | write address update =>
      change writeThrough program address update = some next at stepped
      rw [writeThrough] at stepped
      split at stepped <;> cases stepped
      exact List.length_set
  | release address =>
      change stepRelease program address = some next at stepped
      rw [BookUpdatesPool.stepRelease] at stepped
      split at stepped <;> cases stepped
      · exact List.length_modify _ _ _
      all_goals rfl

/-- No object ever goes away. -/
theorem step_length_le {event : Event} (stepped : step program event = some next) :
    program.pool.objects.length ≤ next.pool.objects.length := by
  by_cases acquires : event = .acquire
  · subst acquires
    cases stepped
    exact BookUpdatePool.acquire_length_le program.pool
  · exact Nat.le_of_eq (step_length_of_ne_acquire stepped acquires).symm

/-- Each index is free, of one live lease, or in the middle of one release. -/
structure Partitioned (program : Program) : Prop where
  nodup : program.pool.freeIndices.Nodup
  partition :
    (program.pool.freeIndices ++ live program.leases ++ releasing program.leases).Perm
      (List.range program.pool.objects.length)

theorem Owned.partitioned (owned : Owned program) : Partitioned program where
  nodup := (List.nodup_append.mp (Lending.nodup owned.lent)).1
  partition := by
    rw [List.append_assoc]
    exact ((held_perm program.leases).symm.append_left _).trans owned.lent.partition

end Steps

/-- The lease that `acquire` returns refers to a cleared object. -/
def HandsOutCleared (pool : BookUpdatePool) : Prop :=
  pool.acquire.2.pool = true ∧
    ∃ update, pool.acquire.1.objects[pool.acquire.2.index]? = some update ∧ update.Cleared

theorem mutexPool_partitioned (initialCapacity : Nat) (events : List Event) (program : Program)
    (run : runFrom step (start initialCapacity) events = some program) :
    Partitioned program ∧ HandsOutCleared program.pool ∧
      ∀ event next, step program event = some next →
        program.pool.objects.length ≤ next.pool.objects.length := by
  have owned : Owned program := by
    apply invariant_of_run _ run (start_owned initialCapacity)
    intro state after event before stepped
    exact before.step stepped
  refine ⟨owned.partitioned, ?_, fun _ _ => step_length_le⟩
  have isCleared := (BookUpdate.cleared_iff {}).mpr rfl
  exact ⟨BookUpdatePool.acquire_owned _, _, owned.lent.acquire.2, isCleared⟩

/-- A pool of one object grows to two; an assignment to itself changes nothing,
and one that overwrites a live lease frees its object for the next. -/
theorem mutexPool_partitioned_two :
    ∃ program : Program, program.pool.objects.length = 2 ∧
      program.leases =
        [.idle {}, .idle { pool := true, index := 0 }, .idle { pool := true, index := 1 }] ∧
      Partitioned program ∧ HandsOutCleared program.pool :=
  have reached := mutexPool_partitioned 1
    [.acquire, .acquire, .write 0 { firstSequence := 7 }, .moveAssign 0 0, .moveAssign 1 0,
      .release 1, .release 1, .release 1, .acquire] _ rfl
  ⟨_, rfl, rfl, reached.1, reached.2.1⟩

/-- The objects that leases refer to or that a release is still to give back. -/
def Program.inUse (program : Program) : Nat :=
  (held program.leases).length

theorem BookUpdatePool.acquire_grows (pool : BookUpdatePool) :
    pool.acquire.1.objects.length = pool.objects.length ∨
      pool.acquire.1.freeIndices = [] := by
  rw [BookUpdatePool.acquire]
  split
  next noneFree => exact .inr (List.getLast?_eq_none_iff.mp noneFree)
  next => exact .inl rfl

/-- A step makes an object only for a lease that finds none free. -/
theorem Owned.length_eq_max {program next : Program} (owned : Owned program) {event : Event}
    (stepped : BookUpdatesPool.step program event = some next) :
    next.pool.objects.length = max program.pool.objects.length next.inUse := by
  have grown := step_length_le stepped
  have counted : next.pool.freeIndices.length + next.inUse = next.pool.objects.length :=
    (owned.step stepped).lent.length
  by_cases acquires : event = .acquire
  · subst acquires
    have poolEq : next.pool = program.pool.acquire.1 := by cases stepped; rfl
    rcases BookUpdatePool.acquire_grows program.pool with same | noneLeft
    · rw [← poolEq] at same
      omega
    · rw [poolEq, noneLeft, List.length_nil, ← poolEq] at counted
      omega
  · have same := step_length_of_ne_acquire stepped acquires
    omega

/-- After any run of the threads the pool has as many objects as it began with,
or as many as have ever been in use at once if they are more. -/
theorem pool_size_eq_highest (initialCapacity : Nat) (events : List Event) (program : Program)
    (run : runFrom step (start initialCapacity) events = some program) :
    program.pool.size =
      max initialCapacity (highest step Program.inUse (start initialCapacity) events) := by
  have preserved : ∀ {state next : Program} {event : Event}, Owned state →
      step state event = some next → Owned next := fun owned stepped => owned.step stepped
  have raised : ∀ {state next : Program} {event : Event}, Owned state →
      step state event = some next →
        next.pool.size = max state.pool.size next.inUse :=
    fun owned stepped => owned.length_eq_max stepped
  have reached := size_eq_max_highest preserved raised run (start_owned initialCapacity)
    (Nat.zero_le _)
  rw [reached, BookUpdatePool.size, start_length]

/-- Two leases at once make an empty pool grow to two objects; a third one,
taken after one of them has been given back, does not. -/
theorem pool_size_eq_highest_two :
    ∃ events program, runFrom step (start 0) events = some program ∧ events.length = 7 ∧
      program.pool.size = 2 ∧ 2 = max 0 (highest step Program.inUse (start 0) events) := by
  let events : List Event :=
    [.acquire, .acquire, .destroy 0, .release 0, .release 0, .release 0, .acquire]
  have run : ∃ program, runFrom step (start 0) events = some program ∧ program.pool.size = 2 :=
    ⟨_, rfl, rfl⟩
  obtain ⟨program, run, two⟩ := run
  exact ⟨events, program, run, rfl, two, two.symm.trans (pool_size_eq_highest 0 events program run)⟩

end BookUpdatesPool

end Pools

end ExchangeConnectivity
