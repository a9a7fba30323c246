import ExchangeConnectivity.MutexPool
import ExchangeConnectivity.PoolSessions

/-!
# Sessions with the pool under a mutex

An operation of a single thread from its start to its return: the resets it
calls for are run to their end.
-/

namespace ExchangeConnectivity

open ActionRuns LentObjects

namespace Pools

namespace BookUpdatesPool

/-- The thread that resets a lease goes on until it has ended. -/
def settle (target : Nat) : Nat → Program → Option Program
  | 0, _ => none
  | fuel + 1, program =>
      match program.leases[target]? with
      | some (.resetting _ _ _) => (stepRelease program target).bind (settle target fuel)
      | _ => some program

def perform (program : Program) : Operation → Option Program
  | .acquire => step program .acquire
  | .construct => step program .construct
  | .moveConstruct other => step program (.moveConstruct other)
  | .moveAssign target other =>
      (step program (.moveAssign target other)).bind (settle target 4)
  | .destroy target => (step program (.destroy target)).bind (settle target 4)
  | .write address update => step program (.write address update)
  | .size | .available => some program

def output (before after : Program) : Operation → Option Output
  | .acquire => some (.acquired (newest after.leases))
  | .size => some (.size before.pool.size)
  | .available => some (.available before.pool.available)
  | _ => none

section Perform

variable {program next : Program} {target : Nat}

theorem Owned.settle (owned : Owned program) {fuel : Nat}
    (ended : settle target fuel program = some next) : Owned next := by
  induction fuel generalizing program with
  | zero => cases ended
  | succ fuel ih =>
      rw [BookUpdatesPool.settle] at ended
      split at ended
      next =>
        obtain ⟨between, stepped, rest⟩ := Option.bind_eq_some_iff.mp ended
        exact ih (owned.stepRelease stepped) rest
      next => cases ended; exact owned

theorem settle_quiet (quiet : Quiet program.leases) (fuel : Nat) :
    settle target (fuel + 1) program = some program := by
  rw [settle]
  split
  next found => exact (quiet _ (List.mem_of_getElem? found)).elim
  next => rfl

theorem settle_step {index fuel : Nat} {phase : Phase} {purpose : Purpose}
    (found : program.leases[target]? = some (.resetting index phase purpose))
    (stepped : stepRelease program target = some next) :
    settle target (fuel + 1) program = settle target fuel next := by
  rw [settle, found]
  exact congrArg (Option.bind · (settle target fuel)) stepped

/-- A reset takes three steps. -/
theorem settle_reset {index : Nat} {purpose : Purpose}
    (found : program.leases[target]? = some (.resetting index .clear purpose))
    (quiet : Quiet (settled program.leases target)) :
    settle target 4 program =
      some
        { pool := (program.pool.clear index).insert index
          leases := settled program.leases target } := by
  obtain ⟨lt, -⟩ := List.getElem?_eq_some_iff.mp found
  rw [settled, found] at quiet ⊢
  let cleared : Program :=
    { pool := program.pool.clear index
      leases := program.leases.set target (.resetting index .insert purpose) }
  let inserted : Program :=
    { pool := (program.pool.clear index).insert index
      leases := program.leases.set target (.resetting index .done purpose) }
  have foundCleared : cleared.leases[target]? = some (.resetting index .insert purpose) :=
    List.getElem?_set_self lt
  have foundInserted : inserted.leases[target]? = some (.resetting index .done purpose) :=
    List.getElem?_set_self lt
  have clear : stepRelease program target = some cleared := by
    rw [stepRelease, found]
  have insert : stepRelease cleared target = some inserted := by
    rw [stepRelease, foundCleared]
    simp only [cleared, inserted, List.set_set]
  have finishes : stepRelease inserted target =
      some { inserted with leases := finish inserted.leases target purpose } := by
    rw [stepRelease, foundInserted]
  rw [settle_step found clear, settle_step foundCleared insert,
    settle_step foundInserted finishes]
  exact settle_quiet quiet 0

theorem settle_leases (fresh : Fresh program.leases target)
    (quiet : Quiet (settled program.leases target))
    (ended : settle target 4 program = some next) :
    next.leases = settled program.leases target := by
  have unchanged : settled program.leases target = program.leases →
      next.leases = settled program.leases target := by
    intro same
    rw [same] at quiet ⊢
    rw [settle_quiet quiet 3] at ended
    cases ended
    rfl
  cases found : program.leases[target]? with
  | none =>
      apply unchanged
      rw [settled, found]
  | some state =>
      cases state with
      | resetting index phase purpose =>
          cases fresh index phase purpose found
          rw [settle_reset found quiet] at ended
          cases ended
          rfl
      | idle lease =>
          apply unchanged
          rw [settled, found]
      | destroyed =>
          apply unchanged
          rw [settled, found]

/-- A program between two operations. -/
structure AtRest (program : Program) : Prop where
  owned : Owned program
  quiet : Quiet program.leases

theorem free_of_not_grown {pool : BookUpdatePool}
    (notGrown : pool.acquire.1.objects.length = pool.objects.length) :
    0 < pool.freeIndices.length := by
  apply List.length_pos_of_ne_nil
  intro empty
  rw [BookUpdatePool.acquire, empty] at notGrown
  exact absurd notGrown (by simp)

theorem AtRest.free_eq (rest : AtRest program) :
    program.pool.freeIndices.length + (handles program.leases).live =
      program.pool.objects.length := by
  rw [rest.quiet.live_eq]
  exact rest.owned.lent.length

theorem handles_acquire (pool : BookUpdatePool) (leases : List LeaseState) :
    handles (leases ++ [.idle pool.acquire.2]) = handles leases ++ [some true] := by
  rw [handles, List.map_append, List.map_singleton, LeaseState.handle,
    BookUpdatePool.acquire_owned]
  rfl

/-- The leases after an operation are as visible as they are without a pool,
unless the pool has grown. -/
theorem AtRest.perform (rest : AtRest program) {operation : Operation} {capacity : Nat}
    (performed : perform program operation = some next)
    (sized : program.pool.objects.length = capacity)
    (notGrown : next.pool.objects.length = capacity) :
    AtRest next ∧
      (handles program.leases).apply capacity operation = some (handles next.leases) := by
  cases operation with
  | acquire =>
      cases performed
      refine ⟨⟨rest.owned.acquire, rest.quiet.append trivial⟩, ?_⟩
      have some_ := free_of_not_grown (notGrown.trans sized.symm)
      have free := rest.free_eq
      rw [Handles.apply, if_pos (by omega)]
      exact congrArg some (handles_acquire program.pool program.leases).symm
  | construct =>
      have stepped : step program .construct = some next := performed
      have owned := rest.owned.step stepped
      cases performed
      refine ⟨⟨owned, rest.quiet.append trivial⟩, ?_⟩
      rw [Handles.apply, handles, handles, Pools.construct, List.map_append]
      rfl
  | moveConstruct other =>
      have stepped : step program (.moveConstruct other) = some next := performed
      have owned := rest.owned.step stepped
      obtain ⟨leases, moved, rfl⟩ := Option.map_eq_some_iff.mp performed
      refine ⟨⟨owned, rest.quiet.moveConstruct moved⟩, ?_⟩
      rw [Handles.apply, ← rest.quiet.handles_moveConstruct, moved]
      rfl
  | moveAssign target other =>
      obtain ⟨between, stepped, ended⟩ := Option.bind_eq_some_iff.mp performed
      have owned := (rest.owned.step stepped).settle ended
      obtain ⟨leases, assigned, rfl⟩ := Option.map_eq_some_iff.mp stepped
      have quiet := rest.quiet.quiet_settled_moveAssign assigned
      have after := settle_leases (rest.quiet.fresh_moveAssign assigned) quiet ended
      refine ⟨⟨owned, after ▸ quiet⟩, ?_⟩
      rw [Handles.apply, ← rest.quiet.handles_moveAssign, assigned, after]
      rfl
  | destroy target =>
      obtain ⟨between, stepped, ended⟩ := Option.bind_eq_some_iff.mp performed
      have owned := (rest.owned.step stepped).settle ended
      obtain ⟨leases, destroyed, rfl⟩ := Option.map_eq_some_iff.mp stepped
      have quiet := rest.quiet.quiet_settled_destroy destroyed
      have after := settle_leases (rest.quiet.fresh_destroy destroyed) quiet ended
      refine ⟨⟨owned, after ▸ quiet⟩, ?_⟩
      rw [Handles.apply, ← rest.quiet.handles_destroy, destroyed, after]
      rfl
  | write address update =>
      have stepped : step program (.write address update) = some next := performed
      have owned := rest.owned.step stepped
      have written : writeThrough program address update = some next := performed
      rw [writeThrough] at written
      split at written
      next index idle =>
        cases written
        refine ⟨⟨owned, rest.quiet⟩, ?_⟩
        rw [Handles.apply, rest.quiet.handle_eq, idle]
        rfl
      next => cases written
  | size => cases performed; exact ⟨rest, rfl⟩
  | available => cases performed; exact ⟨rest, rfl⟩

theorem settle_length_le {fuel : Nat} (ended : settle target fuel program = some next) :
    program.pool.objects.length ≤ next.pool.objects.length := by
  induction fuel generalizing program with
  | zero => cases ended
  | succ fuel ih =>
      rw [settle] at ended
      split at ended
      next =>
        obtain ⟨between, stepped, later⟩ := Option.bind_eq_some_iff.mp ended
        have released : step program (.release target) = some between := stepped
        exact Nat.le_trans (step_length_le released) (ih later)
      next => cases ended; exact Nat.le_refl _

theorem perform_length_le {operation : Operation}
    (performed : perform program operation = some next) :
    program.pool.objects.length ≤ next.pool.objects.length := by
  cases operation with
  | moveAssign target other | destroy target =>
      obtain ⟨between, stepped, ended⟩ := Option.bind_eq_some_iff.mp performed
      exact Nat.le_trans (step_length_le stepped) (settle_length_le ended)
  | size | available => cases performed; exact Nat.le_refl _
  | acquire => exact @step_length_le program next .acquire performed
  | construct => exact @step_length_le program next .construct performed
  | moveConstruct other => exact @step_length_le program next (.moveConstruct other) performed
  | write address update => exact @step_length_le program next (.write address update) performed

end Perform

end BookUpdatesPool

end Pools

end ExchangeConnectivity
