import ExchangeConnectivity.LockFreePoolLeases
import ExchangeConnectivity.PoolSessions

/-!
# Sessions with the lock-free pool

An operation of a single thread from its start to its return: the call of
`acquire` or the reset it starts is run to its end.
-/

namespace ExchangeConnectivity

open ActionRuns LentObjects

namespace Pools

namespace BookUpdatesScspPool

variable {capacity : Capacity}

/-- The call or the reset that is under way goes on until it has ended. -/
def settle : Nat → Program capacity → Option (Program capacity)
  | 0, _ => none
  | fuel + 1, program =>
      match program.acquiring, program.resetting with
      | .idle, none => some program
      | .idle, some _ => (step program .release).bind (settle fuel)
      | _, _ => (step program .acquiring).bind (settle fuel)

def perform (program : Program capacity) : Operation → Option (Program capacity)
  | .acquire => (step program .acquire).bind (settle 7)
  | .construct => step program .construct
  | .moveConstruct other => step program (.moveConstruct other)
  | .moveAssign target other => (step program (.moveAssign target other)).bind (settle 9)
  | .destroy target => (step program (.destroy target)).bind (settle 9)
  | .write address update => step program (.write address update)
  | .size | .available => some program

def output (before after : Program capacity) : Operation → Option Output
  | .acquire => some (.acquired (newest after.leases))
  | .size => some (.size before.pool.size)
  | .available => some (.available before.pool.available)
  | _ => none

section Perform

variable {program next : Program capacity}

theorem Placed.settle (placed : Placed program) {fuel : Nat}
    (ended : settle fuel program = some next) : Placed next := by
  induction fuel generalizing program with
  | zero => cases ended
  | succ fuel ih =>
      rw [BookUpdatesScspPool.settle] at ended
      split at ended
      next => cases ended; exact placed
      all_goals
        obtain ⟨between, stepped, later⟩ := Option.bind_eq_some_iff.mp ended
        exact ih (placed.step stepped) later

theorem settle_rest (program : Program capacity) (idle : program.acquiring = .idle)
    (none_ : program.resetting = none) (fuel : Nat) :
    settle (fuel + 1) program = some program := by
  rw [settle, idle, none_]

theorem settle_acquiring {fuel : Nat} (stepped : step program .acquiring = some next)
    (busy : program.acquiring ≠ .idle) : settle (fuel + 1) program = settle fuel next := by
  rw [settle]
  split
  next idle _ => exact absurd idle busy
  next idle _ => exact absurd idle busy
  next => rw [stepped]; rfl

theorem settle_release {address fuel : Nat} (stepped : step program .release = some next)
    (idle : program.acquiring = .idle) (resetting : program.resetting = some address) :
    settle (fuel + 1) program = settle fuel next := by
  rw [settle, idle, resetting, stepped]
  rfl

/-- Once `pop` has returned, the call of `acquire` ends. -/
theorem settle_popping {fuel : Nat} {freeIndices : RingBuffer Nat capacity} {result : Option Nat}
    (popping : program.acquiring = .popping) (running : program.terminated = false)
    (none_ : program.resetting = none)
    (returned : RingBuffer.runConsumer id fuel program.pool.freeIndices =
      some (freeIndices, result)) :
    settle (fuel + 2) program =
      some
        { program with
          pool := { program.pool with freeIndices }
          leases := program.leases ++ [.idle (leaseFor result)]
          acquiring := .idle
          acquired := program.acquired ++ [result] } := by
  induction fuel generalizing program with
  | zero => cases returned
  | succ fuel ih =>
      have busy : program.acquiring ≠ .idle := by
        rw [popping]
        intro idle
        cases idle
      rw [RingBuffer.runConsumer] at returned
      split at returned
      next after stepped =>
        cases returned
        let popped : Program capacity :=
          { program with pool := { program.pool with freeIndices }, acquiring := .popped result }
        let ended : Program capacity :=
          { program with
            pool := { program.pool with freeIndices }
            leases := program.leases ++ [.idle (leaseFor result)]
            acquiring := .idle
            acquired := program.acquired ++ [result] }
        have first : step program .acquiring = some popped := by
          rw [step_eq_act running, act, stepAcquire, popping]
          simp only [BookUpdatePool.stepAcquire, stepped, Option.map_some, popped]
        have stillRunning : popped.terminated = false := running
        have second : step popped .acquiring = some ended := step_eq_act stillRunning .acquiring
        have stillBusy : popped.acquiring ≠ .idle := by
          intro idle
          cases idle
        rw [settle_acquiring first busy, settle_acquiring second stillBusy]
        exact settle_rest ended rfl none_ fuel
      next between stepped =>
        let later : Program capacity :=
          { program with pool := { program.pool with freeIndices := between } }
        have first : step program .acquiring = some later := by
          rw [step_eq_act running, act, stepAcquire, popping]
          simp only [BookUpdatePool.stepAcquire, stepped, Option.map_some, later, popping]
        rw [settle_acquiring first busy]
        exact @ih later popping running none_ returned
      next => cases returned

section Release

variable {address index : Nat} {purpose : Purpose} {freeIndices : RingBuffer Nat capacity}

theorem release_clear (running : program.terminated = false)
    (resetting : program.resetting = some address)
    (found : program.leases[address]? = some (.resetting index .clear purpose)) :
    step program .release =
      some
        { program with
          pool := program.pool.clear index
          leases := program.leases.set address (.resetting index .insert purpose) } := by
  simp only [step_eq_act running, act, stepRelease, resetting, found]

theorem release_call (running : program.terminated = false)
    (resetting : program.resetting = some address)
    (found : program.leases[address]? = some (.resetting index .insert purpose))
    (idle : program.pool.freeIndices.producer = .idle)
    (called : program.pool.freeIndices.emplace index = some freeIndices) :
    step program .release = some { program with pool := { program.pool with freeIndices } } := by
  simp only [step_eq_act running, act, stepRelease, resetting, found, BookUpdatePool.stepInsert,
    idle, called, Option.map_some]

theorem stepInsert_of_stepProducer {pool : BookUpdatePool capacity} {result : Option Bool}
    (stepped : pool.freeIndices.stepProducer = some (freeIndices, result)) :
    pool.stepInsert index = some ({ pool with freeIndices }, result) := by
  rw [BookUpdatePool.stepInsert, stepped]
  split
  next idle =>
    rw [RingBuffer.stepProducer, idle] at stepped
    cases stepped
  next => rfl

theorem release_insert (running : program.terminated = false)
    (resetting : program.resetting = some address)
    (found : program.leases[address]? = some (.resetting index .insert purpose))
    (stepped : program.pool.freeIndices.stepProducer = some (freeIndices, none)) :
    step program .release = some { program with pool := { program.pool with freeIndices } } := by
  simp only [step_eq_act running, act, stepRelease, resetting, found,
    stepInsert_of_stepProducer stepped, Option.map_some]

theorem release_inserted (running : program.terminated = false)
    (resetting : program.resetting = some address)
    (found : program.leases[address]? = some (.resetting index .insert purpose))
    (stepped : program.pool.freeIndices.stepProducer = some (freeIndices, some true)) :
    step program .release =
      some
        { program with
          pool := { program.pool with freeIndices }
          leases := program.leases.set address (.resetting index .done purpose) } := by
  simp only [step_eq_act running, act, stepRelease, resetting, found,
    stepInsert_of_stepProducer stepped, Option.map_some]

theorem release_done (running : program.terminated = false)
    (resetting : program.resetting = some address)
    (found : program.leases[address]? = some (.resetting index .done purpose)) :
    step program .release =
      some
        { program with
          leases := finish program.leases address purpose
          resetting := none } := by
  simp only [step_eq_act running, act, stepRelease, resetting, found]

/-- Once `emplace` has returned, the reset and what it is for end. -/
theorem settle_inserting {fuel : Nat} (running : program.terminated = false)
    (idle : program.acquiring = .idle) (resetting : program.resetting = some address)
    (found : program.leases[address]? = some (.resetting index .insert purpose))
    (returned : RingBuffer.runProducer fuel program.pool.freeIndices = some (freeIndices, true)) :
    settle (fuel + 2) program =
      some
        { program with
          pool := { program.pool with freeIndices }
          leases :=
            finish (program.leases.set address (.resetting index .done purpose)) address purpose
          resetting := none } := by
  induction fuel generalizing program with
  | zero => cases returned
  | succ fuel ih =>
      rw [RingBuffer.runProducer] at returned
      split at returned
      next after stepped =>
        cases returned
        let inserted : Program capacity :=
          { program with
            pool := { program.pool with freeIndices }
            leases := program.leases.set address (.resetting index .done purpose) }
        let ended : Program capacity :=
          { inserted with
            leases := finish inserted.leases address purpose
            resetting := none }
        have foundInserted : inserted.leases[address]? = some (.resetting index .done purpose) := by
          obtain ⟨lt, -⟩ := List.getElem?_eq_some_iff.mp found
          exact List.getElem?_set_self lt
        have first : step program .release = some inserted :=
          release_inserted running resetting found stepped
        have second : step inserted .release = some ended :=
          release_done running resetting foundInserted
        rw [settle_release first idle resetting, settle_release second idle resetting]
        exact settle_rest ended idle rfl fuel
      next between stepped =>
        rw [settle_release (release_insert running resetting found stepped) idle resetting]
        exact ih running idle resetting found returned
      next => cases returned

end Release

/-- A program between two operations. -/
structure AtRest (program : Program capacity) : Prop where
  placed : Placed program
  idle : program.acquiring = .idle
  notResetting : program.resetting = none
  quiet : Quiet program.leases
  producer : program.pool.freeIndices.producer = .idle
  consumer : program.pool.freeIndices.consumer = .idle

theorem AtRest.free_eq (rest : AtRest program) :
    program.pool.freeIndices.unread.length + (handles program.leases).live = capacity.value := by
  have total := rest.placed.lent.lending.length
  rw [rest.placed.lent.sized, Program.holders, rest.idle] at total
  rw [rest.quiet.live_eq]
  exact total

/-- The reset of a lease runs to its end. -/
theorem AtRest.settle_reset (rest : AtRest program) {leases : List LeaseState}
    {target index : Nat} {purpose : Purpose}
    (found : leases[target]? = some (.resetting index .clear purpose))
    (placed : Placed { program with leases, resetting := some target })
    (quiet : Quiet (settled leases target)) :
    ∃ next, settle 9 { program with leases, resetting := some target } = some next ∧
      next.leases = settled leases target ∧ AtRest next := by
  obtain ⟨lt, -⟩ := List.getElem?_eq_some_iff.mp found
  have room : program.pool.freeIndices.unread.length < capacity.value :=
    placed.lent.room (List.mem_append_right _ (mem_held found rfl))
  obtain ⟨freeIndices, added, producer, consumer, -, -⟩ :=
    rest.placed.lent.consistent.emplaceAlone_eq rest.producer room index
  obtain ⟨entered, called, returned⟩ := Option.bind_eq_some_iff.mp added
  let started : Program capacity := { program with leases, resetting := some target }
  let cleared : Program capacity :=
    { started with
      pool := program.pool.clear index
      leases := leases.set target (.resetting index .insert purpose) }
  let inserting : Program capacity :=
    { cleared with pool := { cleared.pool with freeIndices := entered } }
  let ended : Program capacity :=
    { cleared with
      pool := { cleared.pool with freeIndices }
      leases := finish (cleared.leases.set target (.resetting index .done purpose)) target purpose
      resetting := none }
  have foundCleared : cleared.leases[target]? = some (.resetting index .insert purpose) :=
    List.getElem?_set_self lt
  have clearing : step started .release = some cleared :=
    release_clear placed.running rfl found
  have calling : step cleared .release = some inserting :=
    release_call placed.running rfl foundCleared rest.producer called
  have inserts : settle 7 inserting = some ended :=
    settle_inserting placed.running rest.idle rfl foundCleared returned
  have settles : settle 9 started = some ended := by
    rw [settle_release clearing rest.idle rfl, settle_release calling rest.idle rfl, inserts]
  have after : ended.leases = settled leases target := by
    rw [settled, found]
    simp only [ended, cleared, List.set_set]
  refine ⟨ended, settles, after, ?_⟩
  exact
    { placed := placed.settle settles
      idle := rest.idle
      notResetting := rfl
      quiet := after ▸ quiet
      producer
      consumer := consumer.trans rest.consumer }

/-- The operation that has changed the leases runs to its end. -/
theorem AtRest.settle_operate (rest : AtRest program) {leases : List LeaseState} {target : Nat}
    (fresh : Fresh leases target) (quiet : Quiet (settled leases target))
    (placed : ∀ {between}, operate program target leases = some between → Placed between) :
    ∃ next, (operate program target leases).bind (settle 9) = some next ∧
      next.leases = settled leases target ∧ AtRest next := by
  by_cases resets : ∃ index phase purpose,
      leases[target]? = some (LeaseState.resetting index phase purpose)
  · obtain ⟨index, phase, purpose, found⟩ := resets
    cases fresh index phase purpose found
    have operated : operate program target leases =
        some { program with leases, resetting := some target } := by
      simp only [operate, found, rest.notResetting]
      rfl
    rw [operated]
    exact rest.settle_reset found (placed operated) quiet
  · have same : settled leases target = leases := by
      rw [settled]
      split
      next index phase purpose found => exact absurd ⟨index, phase, purpose, found⟩ resets
      next => rfl
    have operated : operate program target leases = some { program with leases } := by
      rw [operate]
      split
      next index phase purpose found => exact absurd ⟨index, phase, purpose, found⟩ resets
      next => rfl
    rw [same] at quiet ⊢
    rw [operated]
    refine ⟨_, settle_rest { program with leases } rest.idle rest.notResetting 8, rfl, ?_⟩
    exact { rest with placed := placed operated, quiet }

theorem AtRest.acquire (rest : AtRest program)
    (free : (handles program.leases).live < capacity.value) :
    ∃ next, perform program .acquire = some next ∧ AtRest next ∧
      handles next.leases = handles program.leases ++ [some true] := by
  have total := rest.free_eq
  obtain ⟨freeIndices, popped, consumer, producer, -⟩ :=
    rest.placed.lent.consistent.popAlone_eq id rest.consumer
  obtain ⟨index, front⟩ : ∃ index, program.pool.freeIndices.unread.head? = some index := by
    cases unread : program.pool.freeIndices.unread with
    | nil =>
        rw [unread] at total
        simp at total
        omega
    | cons index others => exact ⟨index, rfl⟩
  rw [front] at popped
  obtain ⟨entered, called, returned⟩ := Option.bind_eq_some_iff.mp popped
  let calling : Program capacity :=
    { program with
      pool := { program.pool with freeIndices := entered }
      acquiring := .popping }
  let ended : Program capacity :=
    { calling with
      pool := { program.pool with freeIndices }
      leases := program.leases ++ [.idle (leaseFor (some index))]
      acquiring := .idle
      acquired := program.acquired ++ [some index] }
  have first : step program .acquire = some calling := by
    rw [step_eq_act rest.placed.running, act, BookUpdatesScspPool.acquire, rest.idle]
    simp only [BookUpdatePool.acquire, called, Option.map_some, calling]
  have rests : settle 7 calling = some ended :=
    settle_popping rfl rest.placed.running rest.notResetting returned
  refine ⟨ended, ?_, ?_, ?_⟩
  · rw [BookUpdatesScspPool.perform, first]
    exact rests
  · exact
      { placed := (rest.placed.step first).settle rests
        idle := rfl
        notResetting := rest.notResetting
        quiet := rest.quiet.append trivial
        producer := producer.trans rest.producer
        consumer }
  · rw [handles, List.map_append]
    rfl

/-- The leases after an operation are as visible as they are without a pool. -/
theorem AtRest.perform (rest : AtRest program) {operation : Operation} {after : Handles}
    (applied : (handles program.leases).apply capacity.value operation = some after) :
    ∃ next, perform program operation = some next ∧ AtRest next ∧
      handles next.leases = after := by
  cases operation with
  | acquire =>
      rw [Handles.apply] at applied
      split at applied
      next free => cases applied; exact rest.acquire free
      next => cases applied
  | construct =>
      cases applied
      have stepped : step program .construct =
          some { program with leases := construct program.leases } :=
        step_eq_act rest.placed.running .construct
      refine ⟨_, stepped, ?_, ?_⟩
      · exact { rest with placed := rest.placed.step stepped, quiet := rest.quiet.append trivial }
      · rw [handles, Pools.construct, List.map_append]
        rfl
  | moveConstruct other =>
      rw [Handles.apply, ← rest.quiet.handles_moveConstruct] at applied
      obtain ⟨leases, moved, rfl⟩ := Option.map_eq_some_iff.mp applied
      have stepped : step program (.moveConstruct other) = some { program with leases } := by
        rw [step_eq_act rest.placed.running, act, moved]
        rfl
      refine ⟨_, stepped, ?_, rfl⟩
      exact
        { rest with
          placed := rest.placed.step stepped
          quiet := rest.quiet.moveConstruct moved }
  | moveAssign target other =>
      rw [Handles.apply, ← rest.quiet.handles_moveAssign] at applied
      obtain ⟨leases, assigned, rfl⟩ := Option.map_eq_some_iff.mp applied
      have stepped : step program (.moveAssign target other) = operate program target leases := by
        rw [step_eq_act rest.placed.running, act, assigned]
        rfl
      obtain ⟨next, settles, settledLeases, nextRest⟩ :=
        rest.settle_operate (rest.quiet.fresh_moveAssign assigned)
          (rest.quiet.quiet_settled_moveAssign assigned)
          fun operated => rest.placed.step (stepped.trans operated)
      refine ⟨next, ?_, nextRest, congrArg handles settledLeases⟩
      rw [BookUpdatesScspPool.perform, stepped, settles]
  | destroy target =>
      rw [Handles.apply, ← rest.quiet.handles_destroy] at applied
      obtain ⟨leases, destroyed, rfl⟩ := Option.map_eq_some_iff.mp applied
      have stepped : step program (.destroy target) = operate program target leases := by
        rw [step_eq_act rest.placed.running, act, destroyed]
        rfl
      obtain ⟨next, settles, settledLeases, nextRest⟩ :=
        rest.settle_operate (rest.quiet.fresh_destroy destroyed)
          (rest.quiet.quiet_settled_destroy destroyed)
          fun operated => rest.placed.step (stepped.trans operated)
      refine ⟨next, ?_, nextRest, congrArg handles settledLeases⟩
      rw [BookUpdatesScspPool.perform, stepped, settles]
  | write address update =>
      rw [Handles.apply, rest.quiet.handle_eq] at applied
      split at applied
      next refers =>
        cases applied
        obtain ⟨⟨pool, index⟩, idle, rfl⟩ := Option.map_eq_some_iff.mp refers
        let written : Program capacity :=
          { program with
            pool := { program.pool with objects := program.pool.objects.set index update } }
        have stepped : step program (.write address update) = some written := by
          rw [step_eq_act rest.placed.running, act, writeThrough, idle]
        exact ⟨written, stepped, { rest with placed := rest.placed.step stepped }, rfl⟩
      next => cases applied
  | size => cases applied; exact ⟨program, rfl, rest, rfl⟩
  | available => cases applied; exact ⟨program, rfl, rest, rfl⟩

end Perform

end BookUpdatesScspPool

end Pools

end ExchangeConnectivity
