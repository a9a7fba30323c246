import Mathlib.Data.List.Nodup

/-!
# Leases

`Lease` of the two pools of `pools/main.cpp`, which do not differ in it.  The
leases of a program are kept in a list, in which the position of a lease stands
for its address, so that a move assignment can tell its two sides apart.  A
destructor or a move assignment that resets a lease takes several steps; until
it has ended, the leases it is about are left to it, since any other access to
them would be a data race.
-/

namespace ExchangeConnectivity

namespace Pools

/-- A lease; `pool` tells whether its pointer to the pool is set. -/
structure Lease where
  pool : Bool := false
  index : Nat := 0
  deriving DecidableEq

/-- The index a lease is responsible for. -/
def Lease.owned (lease : Lease) : Option Nat :=
  if lease.pool then some lease.index else none

/-- How far `reset` is: the object is to be cleared, its index is to be
inserted, or `release` has returned. -/
inductive Phase
  | clear
  | insert
  | done
  deriving DecidableEq

/-- What `reset` is called for; a move assignment goes on with its source. -/
inductive Purpose
  | destroy
  | assign (source : Nat)
  deriving DecidableEq

inductive LeaseState
  | idle (lease : Lease)
  | resetting (index : Nat) (phase : Phase) (purpose : Purpose)
  | destroyed
  deriving DecidableEq

/-- The index a lease is live with. -/
def LeaseState.live : LeaseState → Option Nat
  | .idle lease => lease.owned
  | _ => none

/-- The index in the middle of a release. -/
def LeaseState.releasing : LeaseState → Option Nat
  | .resetting _ .done _ => none
  | .resetting index _ _ => some index
  | _ => none

def LeaseState.held (state : LeaseState) : Option Nat :=
  state.live <|> state.releasing

def live (leases : List LeaseState) : List Nat :=
  leases.filterMap LeaseState.live

def releasing (leases : List LeaseState) : List Nat :=
  leases.filterMap LeaseState.releasing

/-- The indices that leases keep out of the pool. -/
def held (leases : List LeaseState) : List Nat :=
  leases.filterMap LeaseState.held

/-- The lease that a move assignment under way is going to read. -/
def LeaseState.source : LeaseState → Option Nat
  | .resetting _ _ (.assign source) => some source
  | _ => none

def sources (leases : List LeaseState) : List Nat :=
  leases.filterMap LeaseState.source

/-- The lease at an address, unless an operation under way is about it. -/
def idleAt (leases : List LeaseState) (address : Nat) : Option Lease :=
  match leases[address]? with
  | some (.idle lease) => if address ∈ sources leases then none else some lease
  | _ => none

def construct (leases : List LeaseState) : List LeaseState :=
  leases ++ [.idle {}]

/-- A new lease takes over the fields of another. -/
def moveConstruct (leases : List LeaseState) (other : Nat) : Option (List LeaseState) :=
  (idleAt leases other).map fun lease => leases.set other (.idle {}) ++ [.idle lease]

/-- The fields of one lease are exchanged into another. -/
def transfer (leases : List LeaseState) (target other : Nat) : List LeaseState :=
  match leases[other]? with
  | some (.idle lease) => (leases.set target (.idle lease)).set other (.idle {})
  | _ => leases

/-- `operator=` with `other` moved from; a target that holds an index is reset
first. -/
def moveAssign (leases : List LeaseState) (target other : Nat) : Option (List LeaseState) :=
  match idleAt leases target, idleAt leases other with
  | some lease, some _ =>
      if target = other then some leases
      else if lease.pool then
        some (leases.set target (.resetting lease.index .clear (.assign other)))
      else some (transfer leases target other)
  | _, _ => none

def destroy (leases : List LeaseState) (target : Nat) : Option (List LeaseState) :=
  (idleAt leases target).map fun lease =>
    leases.set target
      (if lease.pool then .resetting lease.index .clear .destroy else .destroyed)

/-- `reset` sets the pointer to null and returns, and the operation it was
called for ends. -/
def finish (leases : List LeaseState) (target : Nat) : Purpose → List LeaseState
  | .destroy => leases.set target .destroyed
  | .assign other => transfer leases target other

theorem filterMap_cons_toList (contribution : LeaseState → Option Nat) (state : LeaseState)
    (leases : List LeaseState) :
    (state :: leases).filterMap contribution =
      (contribution state).toList ++ leases.filterMap contribution := by
  cases found : contribution state with
  | none => rw [List.filterMap_cons_none found]; rfl
  | some index => rw [List.filterMap_cons_some found]; rfl

/-- Replacing one entry exchanges what it contributes. -/
theorem filterMap_set_perm (contribution : LeaseState → Option Nat) {leases : List LeaseState}
    {address : Nat} {old : LeaseState} (found : leases[address]? = some old)
    (new : LeaseState) :
    ((contribution old).toList ++ (leases.set address new).filterMap contribution).Perm
      ((contribution new).toList ++ leases.filterMap contribution) := by
  induction leases generalizing address with
  | nil => cases found
  | cons state leases ih =>
      cases address with
      | zero =>
          cases found
          rw [List.set_cons_zero, filterMap_cons_toList, filterMap_cons_toList]
          exact List.perm_append_comm_assoc _ _ _
      | succ address =>
          rw [List.set_cons_succ, filterMap_cons_toList, filterMap_cons_toList]
          have exchanged := (ih found).append_left (contribution state).toList
          have before := List.perm_append_comm_assoc (contribution old).toList
            (contribution state).toList ((leases.set address new).filterMap contribution)
          have after := List.perm_append_comm_assoc (contribution state).toList
            (contribution new).toList (leases.filterMap contribution)
          exact before.trans (exchanged.trans after)

theorem releasing_of_live {state : LeaseState} {index : Nat} (owned : state.live = some index) :
    state.releasing = none := by
  cases state with
  | idle lease => rfl
  | _ => cases owned

/-- What leases keep out of the pool is live or in the middle of a release. -/
theorem held_perm (leases : List LeaseState) :
    (held leases).Perm (live leases ++ releasing leases) := by
  induction leases with
  | nil => exact .refl _
  | cons state leases ih =>
      rw [held, live, releasing, filterMap_cons_toList, filterMap_cons_toList,
        filterMap_cons_toList]
      cases owned : state.live with
      | none =>
          rw [LeaseState.held, owned]
          exact (ih.append_left _).trans (List.perm_append_comm_assoc _ _ _)
      | some index =>
          rw [LeaseState.held, owned, releasing_of_live owned]
          exact ih.append_left _

section Operations

variable {leases next : List LeaseState} {address target other index : Nat} {lease : Lease}

theorem held_set_perm {old : LeaseState} (found : leases[address]? = some old)
    (new : LeaseState) :
    (old.held.toList ++ held (leases.set address new)).Perm (new.held.toList ++ held leases) :=
  filterMap_set_perm LeaseState.held found new

theorem idleAt_eq_some (idle : idleAt leases address = some lease) :
    leases[address]? = some (.idle lease) ∧ address ∉ sources leases := by
  rw [idleAt] at idle
  split at idle
  next found =>
    split at idle
    next => cases idle
    next free =>
      cases idle
      exact ⟨found, free⟩
  next => cases idle

theorem idle_held (full : lease.pool = true) : (LeaseState.idle lease).held = some lease.index := by
  rw [LeaseState.held, LeaseState.live, Lease.owned, if_pos full]
  rfl

theorem idle_held_of_empty (empty : ¬ lease.pool = true) : (LeaseState.idle lease).held = none := by
  rw [LeaseState.held, LeaseState.live, Lease.owned, if_neg empty]
  rfl

theorem held_construct (leases : List LeaseState) : held (construct leases) = held leases := by
  rw [construct, held, List.filterMap_append]
  exact List.append_nil _

theorem held_moveConstruct (moved : moveConstruct leases other = some next) :
    (held next).Perm (held leases) := by
  obtain ⟨lease, idle, rfl⟩ := Option.map_eq_some_iff.mp moved
  have exchanged := held_set_perm (idleAt_eq_some idle).1 (.idle {})
  rw [held, List.filterMap_append]
  exact List.perm_append_comm.trans exchanged

/-- A transfer into a lease that holds nothing. -/
theorem held_transfer {old : LeaseState} (found : leases[target]? = some old)
    (holdsNone : old.held = none) (different : target ≠ other) :
    (held (transfer leases target other)).Perm (held leases) := by
  rw [transfer]
  split
  next moved foundOther =>
    have stillThere : (leases.set target (.idle moved))[other]? = some (.idle moved) := by
      rw [List.getElem?_set_ne different, foundOther]
    have first := held_set_perm found (.idle moved)
    have second := held_set_perm stillThere (.idle {})
    rw [holdsNone] at first
    exact (List.perm_append_left_iff _).mp (second.trans first)
  next => exact .refl _

theorem held_moveAssign (assigned : moveAssign leases target other = some next) :
    (held next).Perm (held leases) := by
  rw [moveAssign] at assigned
  split at assigned
  next lease moved idle idleOther =>
    have found := (idleAt_eq_some idle).1
    split at assigned
    next => cases assigned; exact .refl _
    next different =>
      split at assigned
      next full =>
        cases assigned
        have exchanged := held_set_perm found (.resetting lease.index .clear (.assign other))
        rw [idle_held full] at exchanged
        exact (List.perm_append_left_iff _).mp exchanged
      next empty =>
        cases assigned
        exact held_transfer found (idle_held_of_empty empty) different
  next => cases assigned

theorem held_destroy (destroyed : destroy leases target = some next) :
    (held next).Perm (held leases) := by
  obtain ⟨lease, idle, rfl⟩ := Option.map_eq_some_iff.mp destroyed
  have found := (idleAt_eq_some idle).1
  split
  next full =>
    have exchanged := held_set_perm found (.resetting lease.index .clear .destroy)
    rw [idle_held full] at exchanged
    exact (List.perm_append_left_iff _).mp exchanged
  next empty =>
    have exchanged := held_set_perm found .destroyed
    rw [idle_held_of_empty empty] at exchanged
    exact exchanged

/-- Clearing the object keeps its index with the release. -/
theorem held_clear {purpose : Purpose}
    (found : leases[address]? = some (.resetting index .clear purpose)) :
    (held (leases.set address (.resetting index .insert purpose))).Perm (held leases) :=
  (List.perm_append_left_iff _).mp (held_set_perm found (.resetting index .insert purpose))

/-- An index that has been inserted is no longer with its release. -/
theorem held_insert {purpose : Purpose}
    (found : leases[address]? = some (.resetting index .insert purpose)) :
    (held leases).Perm (index :: held (leases.set address (.resetting index .done purpose))) :=
  (held_set_perm found (.resetting index .done purpose)).symm

theorem held_finish {purpose : Purpose}
    (found : leases[target]? = some (.resetting index .done purpose)) :
    (held (finish leases target purpose)).Perm (held leases) := by
  cases purpose with
  | destroy => exact held_set_perm found .destroyed
  | assign other =>
      by_cases different : target = other
      · subst different
        rw [finish, transfer, found]
      · exact held_transfer found rfl different

/-- Two leases do not hold the same index. -/
theorem address_unique {first second : LeaseState} {firstAddress secondAddress : Nat}
    (nodup : (held leases).Nodup) (foundFirst : leases[firstAddress]? = some first)
    (foundSecond : leases[secondAddress]? = some second) (firstHeld : first.held = some index)
    (secondHeld : second.held = some index) : firstAddress = secondAddress := by
  by_contra different
  have exchanged := held_set_perm foundFirst .destroyed
  have stillThere : (leases.set firstAddress .destroyed)[secondAddress]? = some second := by
    rw [List.getElem?_set_ne different, foundSecond]
  have again : index ∈ held (leases.set firstAddress .destroyed) :=
    List.mem_filterMap.mpr ⟨second, List.mem_of_getElem? stillThere, secondHeld⟩
  rw [firstHeld] at exchanged
  have twice := exchanged.nodup_iff.mpr nodup
  exact (List.nodup_cons.mp twice).1 again

theorem mem_held {state : LeaseState} (found : leases[address]? = some state)
    (stateHeld : state.held = some index) : index ∈ held leases :=
  List.mem_filterMap.mpr ⟨state, List.mem_of_getElem? found, stateHeld⟩

/-- Whatever happens to idle leases leaves the resets alone. -/
theorem resetting_set {new : LeaseState} {phase : Phase} {purpose : Purpose}
    (found : leases[other]? = some (.idle lease))
    (resetting : leases[address]? = some (.resetting index phase purpose)) :
    (leases.set other new)[address]? = some (.resetting index phase purpose) := by
  have different : other ≠ address := by
    rintro rfl
    rw [found] at resetting
    cases resetting
  rw [List.getElem?_set_ne different, resetting]

theorem resetting_append {new : LeaseState} {phase : Phase} {purpose : Purpose}
    (resetting : leases[address]? = some (.resetting index phase purpose)) :
    (leases ++ [new])[address]? = some (.resetting index phase purpose) := by
  obtain ⟨bound, -⟩ := List.getElem?_eq_some_iff.mp resetting
  rw [List.getElem?_append_left bound, resetting]

theorem resetting_moveConstruct {phase : Phase} {purpose : Purpose}
    (moved : moveConstruct leases other = some next)
    (resetting : leases[address]? = some (.resetting index phase purpose)) :
    next[address]? = some (.resetting index phase purpose) := by
  obtain ⟨lease, idle, rfl⟩ := Option.map_eq_some_iff.mp moved
  exact resetting_append (resetting_set (idleAt_eq_some idle).1 resetting)

theorem resetting_transfer {phase : Phase} {purpose : Purpose} (different : target ≠ address)
    (resetting : leases[address]? = some (.resetting index phase purpose)) :
    (transfer leases target other)[address]? = some (.resetting index phase purpose) := by
  rw [transfer]
  split
  next moved found =>
    have apart : other ≠ address := by
      rintro rfl
      rw [found] at resetting
      cases resetting
    rw [List.getElem?_set_ne apart, List.getElem?_set_ne different, resetting]
  next => exact resetting

theorem resetting_moveAssign {phase : Phase} {purpose : Purpose}
    (assigned : moveAssign leases target other = some next)
    (resetting : leases[address]? = some (.resetting index phase purpose)) :
    next[address]? = some (.resetting index phase purpose) := by
  rw [moveAssign] at assigned
  split at assigned
  next lease moved idle idleOther =>
    have found := (idleAt_eq_some idle).1
    split at assigned
    next => cases assigned; exact resetting
    next =>
      split at assigned
      next => cases assigned; exact resetting_set found resetting
      next =>
        cases assigned
        apply resetting_transfer _ resetting
        rintro rfl
        rw [found] at resetting
        cases resetting
  next => cases assigned

theorem resetting_destroy {phase : Phase} {purpose : Purpose}
    (destroyed : destroy leases target = some next)
    (resetting : leases[address]? = some (.resetting index phase purpose)) :
    next[address]? = some (.resetting index phase purpose) := by
  obtain ⟨lease, idle, rfl⟩ := Option.map_eq_some_iff.mp destroyed
  exact resetting_set (idleAt_eq_some idle).1 resetting

/-- The index whose object a release has cleared. -/
def LeaseState.inserting : LeaseState → Option Nat
  | .resetting index .insert _ => some index
  | _ => none

/-- Every index about to be inserted has the property. -/
def Inserting (property : Nat → Prop) (leases : List LeaseState) : Prop :=
  ∀ state ∈ leases, ∀ index, state.inserting = some index → property index

variable {property weaker : Nat → Prop}

theorem Inserting.get {purpose : Purpose} (inserting : Inserting property leases)
    (found : leases[address]? = some (.resetting index .insert purpose)) : property index :=
  inserting _ (List.mem_of_getElem? found) index rfl

theorem Inserting.set {new : LeaseState} (inserting : Inserting property leases)
    (here : ∀ index, new.inserting = some index → property index) :
    Inserting property (leases.set address new) := by
  intro state member
  rcases List.mem_or_eq_of_mem_set member with member | rfl
  · exact inserting state member
  · exact here

theorem Inserting.append {new : LeaseState} (inserting : Inserting property leases)
    (calm : new.inserting = none) : Inserting property (leases ++ [new]) := by
  intro state member index found
  rcases List.mem_append.mp member with member | member
  · exact inserting state member index found
  · rw [List.mem_singleton.mp member, calm] at found
    cases found

theorem Inserting.set_calm {new : LeaseState} (inserting : Inserting property leases)
    (calm : new.inserting = none) : Inserting property (leases.set address new) := by
  apply inserting.set
  intro index found
  rw [calm] at found
  cases found

theorem Inserting.moveConstruct (inserting : Inserting property leases)
    (moved : moveConstruct leases other = some next) : Inserting property next := by
  obtain ⟨lease, -, rfl⟩ := Option.map_eq_some_iff.mp moved
  exact (inserting.set_calm rfl).append rfl

theorem Inserting.transfer (inserting : Inserting property leases) :
    Inserting property (transfer leases target other) := by
  rw [Pools.transfer]
  split
  next => exact (inserting.set_calm rfl).set_calm rfl
  next => exact inserting

theorem Inserting.moveAssign (inserting : Inserting property leases)
    (assigned : moveAssign leases target other = some next) : Inserting property next := by
  rw [Pools.moveAssign] at assigned
  split at assigned
  next =>
    split at assigned
    next => cases assigned; exact inserting
    next =>
      split at assigned
      next => cases assigned; exact inserting.set_calm rfl
      next => cases assigned; exact inserting.transfer
  next => cases assigned

theorem Inserting.destroy (inserting : Inserting property leases)
    (destroyed : destroy leases target = some next) : Inserting property next := by
  obtain ⟨lease, -, rfl⟩ := Option.map_eq_some_iff.mp destroyed
  apply inserting.set_calm
  split <;> rfl

theorem Inserting.finish {purpose : Purpose} (inserting : Inserting property leases) :
    Inserting property (finish leases target purpose) := by
  cases purpose with
  | destroy => exact inserting.set_calm rfl
  | assign other => exact inserting.transfer

theorem Inserting.imp (inserting : Inserting property leases)
    (weaken : ∀ index, property index → weaker index) : Inserting weaker leases :=
  fun state member index found => weaken index (inserting state member index found)

/-- A live lease is not for an index that is about to be inserted. -/
theorem index_ne_of_inserting {state : LeaseState} (nodup : (held leases).Nodup)
    (found : leases[address]? = some (.idle lease)) (full : lease.pool = true)
    (member : state ∈ leases) (inserting : state.inserting = some index) :
    lease.index ≠ index := by
  obtain ⟨position, foundState⟩ := List.mem_iff_getElem?.mp member
  cases state with
  | resetting resetIndex phase purpose =>
      cases phase with
      | insert =>
          cases inserting
          rintro rfl
          have same := address_unique nodup found foundState (idle_held full) rfl
          rw [same, foundState] at found
          cases found
      | _ => cases inserting
  | _ => cases inserting

end Operations

end Pools

end ExchangeConnectivity
