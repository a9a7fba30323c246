import ExchangeConnectivity.ActionRuns
import ExchangeConnectivity.BookUpdates
import ExchangeConnectivity.Leases

/-!
# Sessions with a pool

Sequences of complete operations on a pool and its leases, with what they
return.  A program sees of its leases only which of them exist and which refer
to an object; this much is computed here without a pool.
-/

namespace ExchangeConnectivity

open ActionRuns

namespace Pools

inductive Operation
  | acquire
  | construct
  | moveConstruct (other : Nat)
  | moveAssign (target other : Nat)
  | destroy (target : Nat)
  | write (address : Nat) (update : BookUpdate)
  | size
  | available

/-- What an operation returns; of the lease that `acquire` returns this is
whether it refers to an object. -/
inductive Output
  | acquired (lease : Bool)
  | size (objects : Nat)
  | available (objects : Nat)
  deriving DecidableEq

/-- `operator bool` of the lease that was made last. -/
def newest (leases : List LeaseState) : Bool :=
  match leases.getLast? with
  | some (.idle lease) => lease.pool
  | _ => false

/-- A program between two operations, with what they have returned so far. -/
structure Session (Program : Type) where
  program : Program
  outputs : List Output := []

/-- An operation from its start to its return. -/
def Session.step {Program : Type} (perform : Program → Operation → Option Program)
    (output : Program → Program → Operation → Option Output) (session : Session Program)
    (operation : Operation) : Option (Session Program) :=
  (perform session.program operation).map fun program =>
    { program
      outputs := session.outputs ++ (output session.program program operation).toList }

/-- What a program sees of its leases: none for a lease that has been destroyed,
and otherwise whether it refers to an object. -/
abbrev Handles := List (Option Bool)

namespace Handles

/-- The number of leases that refer to an object. -/
def live (handles : Handles) : Nat :=
  handles.count (some true)

/-- The handles after an operation on a pool that lends at most `capacity`
objects. -/
def apply (capacity : Nat) (handles : Handles) : Operation → Option Handles
  | .acquire => if handles.live < capacity then some (handles ++ [some true]) else none
  | .construct => some (handles ++ [some false])
  | .moveConstruct other =>
      handles[other]?.join.map fun refers => handles.set other (some false) ++ [some refers]
  | .moveAssign target other =>
      handles[target]?.join.bind fun _ =>
        handles[other]?.join.map fun refers =>
          if target = other then handles
          else (handles.set target (some refers)).set other (some false)
  | .destroy target => handles[target]?.join.map fun _ => handles.set target none
  | .write address _ => if handles[address]?.join = some true then some handles else none
  | .size | .available => some handles

end Handles

def LeaseState.handle : LeaseState → Option Bool
  | .idle lease => some lease.pool
  | _ => none

def handles (leases : List LeaseState) : Handles :=
  leases.map LeaseState.handle

/-- The lease is not being reset. -/
def LeaseState.Quiet : LeaseState → Prop
  | .resetting _ _ _ => False
  | _ => True

/-- No operation is under way. -/
def Quiet (leases : List LeaseState) : Prop :=
  ∀ state ∈ leases, state.Quiet

/-- The leases once the reset of one of them, if there is one, has ended. -/
def settled (leases : List LeaseState) (target : Nat) : List LeaseState :=
  match leases[target]? with
  | some (.resetting index _ purpose) =>
      finish (leases.set target (.resetting index .done purpose)) target purpose
  | _ => leases

section Quiet

variable {leases next : List LeaseState} {address target other : Nat}

theorem Quiet.sources_eq (quiet : Quiet leases) : sources leases = [] := by
  apply List.filterMap_eq_nil_iff.mpr
  intro state member
  cases state with
  | resetting => exact (quiet _ member).elim
  | _ => rfl

theorem Quiet.releasing_eq (quiet : Quiet leases) : releasing leases = [] := by
  apply List.filterMap_eq_nil_iff.mpr
  intro state member
  cases state with
  | resetting => exact (quiet _ member).elim
  | _ => rfl

theorem Quiet.handle_eq (quiet : Quiet leases) (address : Nat) :
    (handles leases)[address]?.join = (idleAt leases address).map Lease.pool := by
  rw [idleAt, quiet.sources_eq, handles, List.getElem?_map]
  cases leases[address]? with
  | none => rfl
  | some state =>
      cases state with
      | idle lease => simp [LeaseState.handle]
      | _ => rfl

theorem Quiet.set (quiet : Quiet leases) {new : LeaseState} (isQuiet : new.Quiet) :
    Quiet (leases.set address new) := by
  intro state member
  rcases List.mem_or_eq_of_mem_set member with member | rfl
  · exact quiet state member
  · exact isQuiet

theorem Quiet.append (quiet : Quiet leases) {new : LeaseState} (isQuiet : new.Quiet) :
    Quiet (leases ++ [new]) := by
  intro state member
  rcases List.mem_append.mp member with member | member
  · exact quiet state member
  · rw [List.mem_singleton.mp member]
    exact isQuiet

/-- As many leases refer to objects as indices are held. -/
theorem Quiet.live_eq (quiet : Quiet leases) : (handles leases).live = (held leases).length := by
  induction leases with
  | nil => rfl
  | cons state leases ih =>
      have rest := ih fun other member => quiet other (List.mem_cons_of_mem _ member)
      rw [Handles.live] at rest
      rw [Handles.live, handles, List.map_cons, List.count_cons, held, filterMap_cons_toList,
        List.length_append]
      rw [handles] at rest
      rw [rest, held, Nat.add_comm]
      congr 1
      cases state with
      | idle lease =>
          rcases lease with ⟨_ | _, index⟩ <;> rfl
      | resetting => exact (quiet _ List.mem_cons_self).elim
      | destroyed => rfl

theorem Quiet.moveConstruct (quiet : Quiet leases)
    (moved : Pools.moveConstruct leases other = some next) : Quiet next := by
  obtain ⟨lease, -, rfl⟩ := Option.map_eq_some_iff.mp moved
  apply Quiet.append
  · exact Quiet.set quiet trivial
  · trivial

theorem Quiet.handles_moveConstruct (quiet : Quiet leases) (other : Nat) :
    (Pools.moveConstruct leases other).map handles =
      (handles leases)[other]?.join.map fun refers =>
        (handles leases).set other (some false) ++ [some refers] := by
  rw [quiet.handle_eq, Pools.moveConstruct, Option.map_map, Option.map_map]
  congr 1
  funext lease
  simp [handles, LeaseState.handle, List.map_set]

theorem settled_of_quiet (quiet : Quiet leases) (target : Nat) :
    settled leases target = leases := by
  rw [settled]
  split
  next index phase purpose found => exact (quiet _ (List.mem_of_getElem? found)).elim
  next => rfl

theorem settled_reset {index : Nat} {phase : Phase} {purpose : Purpose}
    (lt : target < leases.length) :
    settled (leases.set target (.resetting index phase purpose)) target =
      finish (leases.set target (.resetting index .done purpose)) target purpose := by
  rw [settled, List.getElem?_set_self lt]
  simp only [List.set_set]

/-- What a move assignment makes of the leases in the end. -/
theorem Quiet.settled_moveAssign (quiet : Quiet leases)
    (assigned : Pools.moveAssign leases target other = some next) :
    ∃ lease, leases[other]? = some (.idle lease) ∧
      settled next target =
        if target = other then leases
        else (leases.set target (.idle lease)).set other (.idle {}) := by
  rw [Pools.moveAssign] at assigned
  split at assigned
  next lease moved idle idleOther =>
    have found := (idleAt_eq_some idle).1
    have foundOther := (idleAt_eq_some idleOther).1
    obtain ⟨lt, -⟩ := List.getElem?_eq_some_iff.mp found
    refine ⟨moved, foundOther, ?_⟩
    split at assigned
    next same =>
      cases assigned
      rw [if_pos same, settled_of_quiet quiet]
    next different =>
      rw [if_neg different]
      split at assigned
      next =>
        cases assigned
        have stillThere :
            (leases.set target (.resetting lease.index .done (.assign other)))[other]? =
              some (.idle moved) := by
          rw [List.getElem?_set_ne different, foundOther]
        rw [settled_reset lt, finish, transfer, stillThere]
        simp only [List.set_set]
      next =>
        cases assigned
        have after : transfer leases target other =
            (leases.set target (.idle moved)).set other (.idle {}) := by
          rw [transfer, foundOther]
        rw [after, settled_of_quiet]
        apply Quiet.set
        · exact Quiet.set quiet trivial
        · trivial
  next => cases assigned

theorem Quiet.settled_destroy (quiet : Quiet leases)
    (destroyed : Pools.destroy leases target = some next) :
    settled next target = leases.set target .destroyed := by
  obtain ⟨lease, idle, rfl⟩ := Option.map_eq_some_iff.mp destroyed
  obtain ⟨lt, -⟩ := List.getElem?_eq_some_iff.mp (idleAt_eq_some idle).1
  split
  next =>
    rw [settled_reset lt, finish, List.set_set]
  next =>
    apply settled_of_quiet
    exact Quiet.set quiet trivial

theorem Quiet.quiet_settled_moveAssign (quiet : Quiet leases)
    (assigned : Pools.moveAssign leases target other = some next) :
    Quiet (settled next target) := by
  obtain ⟨lease, -, after⟩ := quiet.settled_moveAssign assigned
  rw [after]
  split
  next => exact quiet
  next =>
    apply Quiet.set
    · exact Quiet.set quiet trivial
    · trivial

theorem Quiet.quiet_settled_destroy (quiet : Quiet leases)
    (destroyed : Pools.destroy leases target = some next) : Quiet (settled next target) := by
  rw [quiet.settled_destroy destroyed]
  exact Quiet.set quiet trivial

/-- A lease that is being reset has its reset ahead of it. -/
def Fresh (leases : List LeaseState) (target : Nat) : Prop :=
  ∀ index phase purpose, leases[target]? = some (.resetting index phase purpose) →
    phase = .clear

theorem Quiet.fresh (quiet : Quiet leases) (target : Nat) : Fresh leases target :=
  fun _ _ _ found => (quiet _ (List.mem_of_getElem? found)).elim

theorem fresh_reset {index : Nat} {purpose : Purpose} (lt : target < leases.length) :
    Fresh (leases.set target (.resetting index .clear purpose)) target := by
  intro index phase purpose found
  rw [List.getElem?_set_self lt] at found
  cases found
  rfl

theorem Quiet.fresh_moveAssign (quiet : Quiet leases)
    (assigned : Pools.moveAssign leases target other = some next) : Fresh next target := by
  rw [Pools.moveAssign] at assigned
  split at assigned
  next lease moved idle idleOther =>
    obtain ⟨lt, -⟩ := List.getElem?_eq_some_iff.mp (idleAt_eq_some idle).1
    split at assigned
    next => cases assigned; exact quiet.fresh target
    next =>
      split at assigned
      next => cases assigned; exact fresh_reset lt
      next =>
        cases assigned
        rw [transfer, (idleAt_eq_some idleOther).1]
        apply Quiet.fresh
        apply Quiet.set
        · exact Quiet.set quiet trivial
        · trivial
  next => cases assigned

theorem Quiet.fresh_destroy (quiet : Quiet leases)
    (destroyed : Pools.destroy leases target = some next) : Fresh next target := by
  obtain ⟨lease, idle, rfl⟩ := Option.map_eq_some_iff.mp destroyed
  obtain ⟨lt, -⟩ := List.getElem?_eq_some_iff.mp (idleAt_eq_some idle).1
  split
  next => exact fresh_reset lt
  next =>
    apply Quiet.fresh
    exact Quiet.set quiet trivial

theorem exists_moveAssign {lease moved : Lease} (idle : idleAt leases target = some lease)
    (idleOther : idleAt leases other = some moved) :
    ∃ next, Pools.moveAssign leases target other = some next := by
  rw [Pools.moveAssign, idle, idleOther]
  dsimp only
  split
  next => exact ⟨_, rfl⟩
  next => split <;> exact ⟨_, rfl⟩

theorem Quiet.handles_moveAssign (quiet : Quiet leases) (target other : Nat) :
    ((Pools.moveAssign leases target other).map fun next => handles (settled next target)) =
      (handles leases)[target]?.join.bind fun _ =>
        (handles leases)[other]?.join.map fun refers =>
          if target = other then handles leases
          else ((handles leases).set target (some refers)).set other (some false) := by
  rw [quiet.handle_eq, quiet.handle_eq]
  cases idle : idleAt leases target with
  | none => rw [Pools.moveAssign, idle]; rfl
  | some lease =>
      cases idleOther : idleAt leases other with
      | none => rw [Pools.moveAssign, idle, idleOther]; rfl
      | some moved =>
          obtain ⟨next, assigned⟩ := exists_moveAssign idle idleOther
          obtain ⟨source, found, after⟩ := quiet.settled_moveAssign assigned
          rw [(idleAt_eq_some idleOther).1] at found
          cases found
          rw [assigned, Option.map_some, after]
          by_cases same : target = other
          · simp [same]
          · simp [same, handles, List.map_set, LeaseState.handle]

theorem Quiet.handles_destroy (quiet : Quiet leases) (target : Nat) :
    ((Pools.destroy leases target).map fun next => handles (settled next target)) =
      (handles leases)[target]?.join.map fun _ => (handles leases).set target none := by
  rw [quiet.handle_eq]
  cases idle : idleAt leases target with
  | none => rw [Pools.destroy, idle]; rfl
  | some lease =>
      cases destroyed : Pools.destroy leases target with
      | none => rw [Pools.destroy, idle] at destroyed; cases destroyed
      | some next =>
          rw [Option.map_some, quiet.settled_destroy destroyed]
          simp [handles, List.map_set, LeaseState.handle]

end Quiet

end Pools

end ExchangeConnectivity
