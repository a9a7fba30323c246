import ExchangeConnectivity.LockFreePoolSessions
import ExchangeConnectivity.MutexPoolSessions

/-!
# What the two pools say is available

`available` of the lock-free pool reads a counter that nothing changes, so it
is the capacity; `available` of the pool under a mutex counts the free indices.
The two agree as long as nobody asks while a lease is live, and so do the pools
in everything else they return.
-/

namespace ExchangeConnectivity

open ActionRuns

namespace Pools

section Leases

variable {leases others : List LeaseState}

theorem newest_eq (leases : List LeaseState) :
    newest leases = ((handles leases).getLast?.join.getD false) := by
  rw [newest, handles, List.getLast?_map]
  cases leases.getLast? with
  | none => rfl
  | some state => cases state <;> rfl

theorem Quiet.live_length (quiet : Quiet leases) :
    (live leases).length = (handles leases).live := by
  have parts := (held_perm leases).length_eq
  rw [quiet.releasing_eq, List.append_nil] at parts
  rw [quiet.live_eq, parts]

theorem Quiet.live_eq_nil_iff (quiet : Quiet leases) :
    live leases = [] ↔ (handles leases).live = 0 := by
  rw [← quiet.live_length, List.length_eq_zero_iff]

end Leases

/-- A session with the pool under a mutex. -/
abbrev mutexStep := Session.step BookUpdatesPool.perform BookUpdatesPool.output

/-- A session with the lock-free pool. -/
abbrev lockFreeStep (capacity : Capacity) :=
  @Session.step (BookUpdatesScspPool.Program capacity) BookUpdatesScspPool.perform
    BookUpdatesScspPool.output

/-- `available` is asked for only while no lease is live. -/
def AsksAtRest (session : Session BookUpdatesPool.Program) : Operation → Prop
  | .available => live session.program.leases = []
  | _ => True

variable {capacity : Capacity} {mutex : Session BookUpdatesPool.Program}
  {lockFree : Session (BookUpdatesScspPool.Program capacity)}

/-- The programs see the same leases, and the pool under the mutex has not grown. -/
structure Related (mutex : Session BookUpdatesPool.Program)
    (lockFree : Session (BookUpdatesScspPool.Program capacity)) : Prop where
  mutexRest : BookUpdatesPool.AtRest mutex.program
  lockFreeRest : BookUpdatesScspPool.AtRest lockFree.program
  sized : mutex.program.pool.objects.length = capacity.value
  sameHandles : handles lockFree.program.leases = handles mutex.program.leases
  outputs : lockFree.outputs.length = mutex.outputs.length

/-- What the two pools return for an operation. -/
theorem Related.output (related : Related mutex lockFree)
    {mutexNext : BookUpdatesPool.Program} {lockFreeNext : BookUpdatesScspPool.Program capacity}
    (same : handles lockFreeNext.leases = handles mutexNext.leases) (operation : Operation) :
    let returned := BookUpdatesPool.output mutex.program mutexNext operation
    let otherReturned := BookUpdatesScspPool.output lockFree.program lockFreeNext operation
    otherReturned.toList.length = returned.toList.length ∧
      (otherReturned = returned ↔ AsksAtRest mutex operation) := by
  cases operation with
  | acquire =>
      refine ⟨rfl, iff_of_true ?_ trivial⟩
      rw [BookUpdatesScspPool.output, BookUpdatesPool.output, newest_eq, newest_eq, same]
  | size =>
      refine ⟨rfl, iff_of_true ?_ trivial⟩
      rw [BookUpdatesScspPool.output, BookUpdatesPool.output, BookUpdatesPool.BookUpdatePool.size,
        related.sized]
      rfl
  | available =>
      refine ⟨rfl, ?_⟩
      have free := related.mutexRest.free_eq
      rw [related.sized] at free
      rw [AsksAtRest, related.mutexRest.quiet.live_eq_nil_iff]
      rw [BookUpdatesScspPool.output, BookUpdatesPool.output, Option.some_inj,
        Output.available.injEq, BookUpdatesScspPool.BookUpdatePool.available,
        related.lockFreeRest.placed.lent.counter, BookUpdatesPool.BookUpdatePool.available]
      omega
  | _ => exact ⟨rfl, iff_of_true rfl trivial⟩

/-- An operation that does not make the pool under the mutex grow. -/
theorem Related.step (related : Related mutex lockFree) {operation : Operation}
    {mutexNext : Session BookUpdatesPool.Program}
    (stepped : mutexStep mutex operation = some mutexNext)
    (notGrown : mutexNext.program.pool.objects.length = capacity.value) :
    ∃ lockFreeNext, lockFreeStep capacity lockFree operation = some lockFreeNext ∧
      Related mutexNext lockFreeNext ∧
        (lockFreeNext.outputs = mutexNext.outputs ↔
          lockFree.outputs = mutex.outputs ∧ AsksAtRest mutex operation) := by
  obtain ⟨program, performed, rfl⟩ := Option.map_eq_some_iff.mp stepped
  obtain ⟨mutexRest, applied⟩ := related.mutexRest.perform performed related.sized notGrown
  rw [← related.sameHandles] at applied
  obtain ⟨other, otherPerformed, lockFreeRest, sameHandles⟩ := related.lockFreeRest.perform applied
  obtain ⟨lengths, agree⟩ := related.output sameHandles operation
  refine ⟨_, Option.map_eq_some_iff.mpr ⟨other, otherPerformed, rfl⟩, ?_, ?_⟩
  · constructor
    case mutexRest => exact mutexRest
    case lockFreeRest => exact lockFreeRest
    case sized => exact notGrown
    case sameHandles => exact sameHandles
    case outputs => rw [List.length_append, List.length_append, related.outputs, lengths]
  · rw [← agree]
    constructor
    · intro same
      obtain ⟨before, last⟩ := List.append_inj same related.outputs
      have heads := congrArg List.head? last
      rw [Option.head?_toList, Option.head?_toList] at heads
      exact ⟨before, heads⟩
    · rintro ⟨before, last⟩
      rw [before, last]

theorem length_le_of_run {operations : List Operation}
    {start final : Session BookUpdatesPool.Program}
    (run : runFrom mutexStep start operations = some final) :
    start.program.pool.objects.length ≤ final.program.pool.objects.length := by
  induction operations generalizing start with
  | nil => cases run; exact Nat.le_refl _
  | cons operation operations ih =>
      obtain ⟨next, stepped, rest⟩ := runFrom_cons_eq_some_iff.mp run
      obtain ⟨program, performed, rfl⟩ := Option.map_eq_some_iff.mp stepped
      exact Nat.le_trans (BookUpdatesPool.perform_length_le performed) (ih rest)

theorem Related.run {operations : List Operation} {final : Session BookUpdatesPool.Program}
    (related : Related mutex lockFree) (run : runFrom mutexStep mutex operations = some final)
    (notGrown : final.program.pool.objects.length = capacity.value) :
    ∃ other, runFrom (lockFreeStep capacity) lockFree operations = some other ∧
      (other.outputs = final.outputs ↔
        lockFree.outputs = mutex.outputs ∧ EveryStep mutexStep AsksAtRest mutex operations) := by
  induction operations generalizing mutex lockFree with
  | nil =>
      cases run
      exact ⟨lockFree, rfl, (and_iff_left trivial).symm⟩
  | cons operation operations ih =>
      obtain ⟨next, stepped, rest⟩ := runFrom_cons_eq_some_iff.mp run
      have between : next.program.pool.objects.length = capacity.value := by
        obtain ⟨program, performed, same⟩ := Option.map_eq_some_iff.mp stepped
        have before := BookUpdatesPool.perform_length_le performed
        have after := length_le_of_run rest
        rw [← same] at after ⊢
        rw [related.sized] at before
        exact Nat.le_antisymm (notGrown ▸ after) before
      obtain ⟨otherNext, otherStepped, relatedNext, here⟩ := related.step stepped between
      obtain ⟨other, otherRest, agree⟩ := ih relatedNext rest
      refine ⟨other, runFrom_cons_eq_some_iff.mpr ⟨otherNext, otherStepped, otherRest⟩, ?_⟩
      rw [agree, here, and_assoc, EveryStep]
      simp only [stepped, Option.some_inj, forall_eq']

/-- No call of `acquire` and no reset is in progress. -/
def Quiescent (program : BookUpdatesScspPool.Program capacity) : Prop :=
  program.acquiring = .idle ∧ Quiet program.leases

/-- Between operations the free indices are those that no live lease holds, and
`available` is their number exactly when there is no live lease. -/
theorem available_eq_iff {program : BookUpdatesScspPool.Program capacity}
    (placed : BookUpdatesScspPool.Placed program) (quiescent : Quiescent program) :
    program.pool.freeIndices.unread.length = capacity.value - (live program.leases).length ∧
      (program.pool.available = program.pool.freeIndices.unread.length ↔
        live program.leases = []) := by
  obtain ⟨idle, quiet⟩ := quiescent
  have total := placed.lent.lending.length
  rw [placed.lent.sized, BookUpdatesScspPool.Program.holders, idle] at total
  have held : (held program.leases).length = (live program.leases).length := by
    rw [quiet.live_length, quiet.live_eq]
  change _ + (Pools.held program.leases).length = _ at total
  rw [held] at total
  rw [← List.length_eq_zero_iff, BookUpdatesScspPool.BookUpdatePool.available,
    placed.lent.counter]
  omega

/-- The number of free indices is the capacity less the live leases in every
reachable state at rest, and `available` returns it exactly when no lease is
live.  The pools return the same for a sequence of operations in which the one
under the mutex does not grow exactly when `available` is asked for only then. -/
theorem availability_agrees_iff (capacity : Capacity) :
    ∃ pool, BookUpdatesScspPool.BookUpdatePool.construct capacity = some pool ∧
      (∀ events program, runFrom BookUpdatesScspPool.step { pool } events = some program →
        Quiescent program →
          program.pool.freeIndices.unread.length =
              capacity.value - (live program.leases).length ∧
            (program.pool.available = program.pool.freeIndices.unread.length ↔
              live program.leases = [])) ∧
      ∀ operations final,
        runFrom mutexStep { program := BookUpdatesPool.start capacity.value } operations =
          some final →
        final.program.pool.objects.length = capacity.value →
          ∃ other,
            runFrom (lockFreeStep capacity) { program := { pool } } operations = some other ∧
              (other.outputs = final.outputs ↔
                EveryStep mutexStep AsksAtRest
                  { program := BookUpdatesPool.start capacity.value } operations) := by
  obtain ⟨pool, constructed, filled⟩ :=
    BookUpdatesScspPool.BookUpdatePool.exists_construct capacity
  have initially := BookUpdatesScspPool.start_placed filled
  refine ⟨pool, constructed, ?_, ?_⟩
  · intro events program run quiescent
    have placed : BookUpdatesScspPool.Placed program := by
      apply invariant_of_run _ run initially
      intro state after event before stepped
      exact before.step stepped
    exact available_eq_iff placed quiescent
  · intro operations final run notGrown
    have related : @Related capacity
        { program := BookUpdatesPool.start capacity.value } { program := { pool } } := by
      constructor
      case mutexRest => exact ⟨BookUpdatesPool.start_owned _, List.forall_mem_nil _⟩
      case lockFreeRest =>
        exact
          { placed := initially
            idle := rfl
            notResetting := rfl
            quiet := List.forall_mem_nil _
            producer := filled.idle.1
            consumer := filled.idle.2 }
      case sized => exact BookUpdatesPool.start_length _
      case sameHandles => rfl
      case outputs => rfl
    obtain ⟨other, otherRun, agree⟩ := related.run run notGrown
    exact ⟨other, otherRun, agree.trans (and_iff_right rfl)⟩

/-- One of two objects has been acquired, and the lock-free pool still says two. -/
theorem acquired_object_still_available :
    ∃ pool : BookUpdatesScspPool.BookUpdatePool ⟨2, by decide, by decide⟩,
      BookUpdatesScspPool.BookUpdatePool.construct ⟨2, by decide, by decide⟩ = some pool ∧
      (∃ program,
        runFrom BookUpdatesScspPool.step { pool }
          [.acquire, .acquiring, .acquiring, .acquiring, .acquiring, .acquiring, .acquiring] =
            some program ∧
          program.acquiring = .idle ∧ program.leases = [.idle { pool := true, index := 0 }] ∧
          program.pool.available = 2 ∧ program.pool.freeIndices.unread.length = 1) ∧
      (runFrom mutexStep { program := BookUpdatesPool.start 2 } [.acquire, .available]).map
          Session.outputs = some [.acquired true, .available 1] ∧
      (runFrom (lockFreeStep _) { program := { pool } } [.acquire, .available]).map
          Session.outputs = some [.acquired true, .available 2] :=
  ⟨_, rfl, ⟨_, rfl, rfl, rfl, rfl, rfl⟩, rfl, rfl⟩

end Pools

end ExchangeConnectivity
