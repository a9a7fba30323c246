import Mathlib.Tactic.Common

/-!
# Runs of a machine driven by actions

A machine is a partial step function: in each state it either refuses an
action or has one successor.  This file defines its runs over lists of actions
and the two induction rules used for them: one for an invariant that every
step preserves, and one for a property that holds throughout a run exactly
when the steps meet a condition.
-/

namespace ActionRuns

variable {State Action : Type*} {step : State → Action → Option State}

/-- The state after the actions, if each is accepted in turn. -/
def runFrom (step : State → Action → Option State) (start : State)
    (actions : List Action) : Option State :=
  actions.foldlM step start

@[simp]
theorem runFrom_nil (start : State) : runFrom step start [] = some start :=
  rfl

theorem runFrom_cons (start : State) (action : Action) (actions : List Action) :
    runFrom step start (action :: actions) =
      (step start action).bind (runFrom step · actions) :=
  rfl

theorem runFrom_cons_eq_some_iff {start final : State} {action : Action}
    {actions : List Action} :
    runFrom step start (action :: actions) = some final ↔
      ∃ next, step start action = some next ∧
        runFrom step next actions = some final := by
  rw [runFrom_cons, Option.bind_eq_some_iff]

theorem runFrom_concat {start middle final : State} {actions : List Action} {action : Action}
    (before : runFrom step start actions = some middle)
    (stepped : step middle action = some final) :
    runFrom step start (actions ++ [action]) = some final := by
  rw [runFrom] at before
  rw [runFrom, List.foldlM_append, before]
  simp [stepped]

/-- What every step of an allowed action preserves holds after every run of
allowed actions. -/
theorem invariant_of_run_of_forall {invariant : State → Prop} {allowed : Action → Prop}
    (preserved : ∀ {state next : State} {action : Action}, allowed action → invariant state →
      step state action = some next → invariant next)
    {start final : State} {actions : List Action} (all : ∀ action ∈ actions, allowed action)
    (run : runFrom step start actions = some final)
    (initially : invariant start) : invariant final := by
  induction actions generalizing start with
  | nil =>
      rw [runFrom_nil, Option.some_inj] at run
      rwa [← run]
  | cons action actions ih =>
      obtain ⟨next, stepped, rest⟩ := runFrom_cons_eq_some_iff.mp run
      obtain ⟨first, others⟩ := List.forall_mem_cons.mp all
      exact ih others rest (preserved first initially stepped)

/-- What every step preserves holds after every run. -/
theorem invariant_of_run {invariant : State → Prop}
    (preserved : ∀ {state next : State} {action : Action}, invariant state →
      step state action = some next → invariant next)
    {start final : State} {actions : List Action}
    (run : runFrom step start actions = some final)
    (initially : invariant start) : invariant final :=
  invariant_of_run_of_forall (fun _ => preserved) (fun _ _ => trivial) run initially

/-- A run along which an invariant is kept has at most as many steps as a
measure that every step then lowers. -/
theorem run_length_le_measure_of_invariant {invariant : State → Prop} {measure : State → Nat}
    (preserved : ∀ {state next : State} {action : Action}, invariant state →
      step state action = some next → invariant next)
    (lowers : ∀ {state next : State} {action : Action}, invariant state →
      step state action = some next → measure next < measure state)
    {start final : State} {actions : List Action}
    (run : runFrom step start actions = some final)
    (initially : invariant start) : actions.length ≤ measure start := by
  induction actions generalizing start with
  | nil => exact Nat.zero_le _
  | cons action actions ih =>
      obtain ⟨next, stepped, rest⟩ := runFrom_cons_eq_some_iff.mp run
      have lower := lowers initially stepped
      have later := ih rest (preserved initially stepped)
      rw [List.length_cons]
      omega

/-- A run has at most as many steps as a measure that every step lowers. -/
theorem run_length_le_measure {measure : State → Nat}
    (lowers : ∀ {state next : State} {action : Action}, step state action = some next →
      measure next < measure state)
    {start final : State} {actions : List Action}
    (run : runFrom step start actions = some final) : actions.length ≤ measure start := by
  have kept : ∀ {state next : State} {action : Action}, True →
      step state action = some next → True :=
    fun _ _ => trivial
  exact run_length_le_measure_of_invariant kept (fun _ => lowers) run trivial

/-- The steps a run takes: each state with the action accepted in it. -/
def trace (step : State → Action → Option State) : State → List Action →
    List (State × Action)
  | _, [] => []
  | state, action :: actions =>
      match step state action with
      | some next => (state, action) :: trace step next actions
      | none => []

theorem trace_actions {start final : State} {actions : List Action}
    (run : runFrom step start actions = some final) :
    (trace step start actions).map Prod.snd = actions := by
  induction actions generalizing start with
  | nil => rfl
  | cons action actions ih =>
      obtain ⟨next, stepped, rest⟩ := runFrom_cons_eq_some_iff.mp run
      simp [trace, stepped, ih rest]

/-- Every state of the run has the property. -/
def EveryState (step : State → Action → Option State) (property : State → Prop) :
    State → List Action → Prop
  | state, [] => property state
  | state, action :: actions =>
      property state ∧
        ∀ next, step state action = some next → EveryState step property next actions

/-- Every action taken in the run meets the condition in its state. -/
def EveryStep (step : State → Action → Option State)
    (condition : State → Action → Prop) : State → List Action → Prop
  | _, [] => True
  | state, action :: actions =>
      ∀ next, step state action = some next →
        condition state action ∧ EveryStep step condition next actions

theorem EveryStep.imp {condition weaker : State → Action → Prop}
    (weaken : ∀ {state next : State} {action : Action}, step state action = some next →
      condition state action → weaker state action)
    {start : State} {actions : List Action} (every : EveryStep step condition start actions) :
    EveryStep step weaker start actions := by
  induction actions generalizing start with
  | nil => trivial
  | cons action actions ih =>
      intro next stepped
      obtain ⟨here, later⟩ := every next stepped
      exact ⟨weaken stepped here, ih later⟩

theorem EveryStep.of_forall {condition : State → Action → Prop} {actions : List Action}
    (all : ∀ action ∈ actions, ∀ state, condition state action) (start : State) :
    EveryStep step condition start actions := by
  induction actions generalizing start with
  | nil => trivial
  | cons action actions ih =>
      obtain ⟨first, others⟩ := List.forall_mem_cons.mp all
      exact fun next _ => ⟨first start, ih others next⟩

theorem EveryStep.of_trace {condition : State → Action → Prop} {start : State}
    {actions : List Action}
    (all : ∀ taken ∈ trace step start actions, condition taken.1 taken.2) :
    EveryStep step condition start actions := by
  induction actions generalizing start with
  | nil => trivial
  | cons action actions ih =>
      intro next stepped
      simp only [trace, stepped, List.forall_mem_cons] at all
      exact ⟨all.1, ih all.2⟩

/-- What every step that meets the condition preserves, given the steps taken
before it, holds after every run of such steps. -/
theorem invariant_of_trace_of_everyStep (invariant : List (State × Action) → State → Prop)
    {condition : State → Action → Prop}
    (preserved : ∀ {past : List (State × Action)} {state next : State} {action : Action},
      condition state action → invariant past state → step state action = some next →
        invariant (past ++ [(state, action)]) next)
    {start final : State} {actions : List Action}
    (run : runFrom step start actions = some final)
    (every : EveryStep step condition start actions) (initially : invariant [] start) :
    invariant (trace step start actions) final := by
  suffices general : ∀ past, invariant past start →
      invariant (past ++ trace step start actions) final from general [] initially
  clear initially
  induction actions generalizing start with
  | nil =>
      intro past holds
      rw [runFrom_nil, Option.some_inj] at run
      rw [trace, List.append_nil, ← run]
      exact holds
  | cons action actions ih =>
      intro past holds
      obtain ⟨next, stepped, rest⟩ := runFrom_cons_eq_some_iff.mp run
      obtain ⟨met, others⟩ := every next stepped
      have later := ih rest others _ (preserved met holds stepped)
      rw [List.append_assoc, List.singleton_append] at later
      simpa only [trace, stepped] using later

/-- What every step preserves, given the steps taken before it, holds after
every run of the steps it has taken. -/
theorem invariant_of_trace (invariant : List (State × Action) → State → Prop)
    (preserved : ∀ {past : List (State × Action)} {state next : State} {action : Action},
      invariant past state → step state action = some next →
        invariant (past ++ [(state, action)]) next)
    {start final : State} {actions : List Action}
    (run : runFrom step start actions = some final) (initially : invariant [] start) :
    invariant (trace step start actions) final := by
  have every : EveryStep step (fun _ _ => True) start actions :=
    EveryStep.of_forall (fun _ _ _ => trivial) start
  exact invariant_of_trace_of_everyStep invariant (fun _ => preserved) run every initially

/-- What every step preserves, given the actions taken before it, holds after
every run of the actions it has taken. -/
theorem invariant_of_actions (invariant : List Action → State → Prop)
    (preserved : ∀ {past : List Action} {state next : State} {action : Action},
      invariant past state → step state action = some next → invariant (past ++ [action]) next)
    {start final : State} {actions : List Action}
    (run : runFrom step start actions = some final) (initially : invariant [] start) :
    invariant actions final := by
  have taken : invariant ((trace step start actions).map Prod.snd) final := by
    refine invariant_of_trace (fun past => invariant (past.map Prod.snd)) ?_ run initially
    intro past state next action holds stepped
    rw [List.map_append]
    exact preserved holds stepped
  rwa [trace_actions run] at taken

/-- A property holds throughout a run exactly when every step meets a
condition, if the condition decides after each step whether the property still
holds and an invariant is kept along the steps that meet it. -/
theorem everyState_iff_everyStep {invariant property : State → Prop}
    {condition : State → Action → Prop}
    (decides : ∀ {state next : State} {action : Action}, invariant state →
      step state action = some next → (condition state action ↔ property next))
    (preserved : ∀ {state next : State} {action : Action}, invariant state →
      step state action = some next → condition state action → invariant next)
    {start : State} (actions : List Action) (initially : invariant start)
    (holds : property start) :
    EveryState step property start actions ↔ EveryStep step condition start actions := by
  induction actions generalizing start with
  | nil => exact iff_of_true holds trivial
  | cons action actions ih =>
      rw [EveryState, EveryStep, and_iff_right holds]
      refine forall₂_congr fun next stepped => ?_
      rw [decides initially stepped]
      constructor
      · intro later
        have nextHolds : property next := by
          cases actions with
          | nil => exact later
          | cons => exact later.1
        have kept := preserved initially stepped
          ((decides initially stepped).mpr nextHolds)
        exact ⟨nextHolds, (ih kept nextHolds).mp later⟩
      · rintro ⟨nextHolds, later⟩
        have kept := preserved initially stepped
          ((decides initially stepped).mpr nextHolds)
        exact (ih kept nextHolds).mpr later

/-- The greatest value that a measure takes in the states of a run. -/
def highest (step : State → Action → Option State) (measure : State → Nat) :
    State → List Action → Nat
  | state, [] => measure state
  | state, action :: actions =>
      match step state action with
      | some next => max (measure state) (highest step measure next actions)
      | none => measure state

theorem le_highest (measure : State → Nat) (start : State) (actions : List Action) :
    measure start ≤ highest step measure start actions := by
  cases actions with
  | nil => exact Nat.le_refl _
  | cons action actions =>
      rw [highest]
      split
      · exact Nat.le_max_left _ _
      · exact Nat.le_refl _

/-- A size that every step raises to the measure, and no further, is at the end
of a run the highest measure there has been. -/
theorem size_eq_max_highest {invariant : State → Prop} {size measure : State → Nat}
    (preserved : ∀ {state next : State} {action : Action}, invariant state →
      step state action = some next → invariant next)
    (raised : ∀ {state next : State} {action : Action}, invariant state →
      step state action = some next → size next = max (size state) (measure next))
    {start final : State} {actions : List Action}
    (run : runFrom step start actions = some final) (initially : invariant start)
    (within : measure start ≤ size start) :
    size final = max (size start) (highest step measure start actions) := by
  induction actions generalizing start with
  | nil =>
      rw [runFrom_nil, Option.some_inj] at run
      rw [highest, ← run, Nat.max_eq_left within]
  | cons action actions ih =>
      obtain ⟨next, stepped, rest⟩ := runFrom_cons_eq_some_iff.mp run
      have nextSize := raised initially stepped
      have later := ih rest (preserved initially stepped) (by omega)
      have nextHighest : measure next ≤ highest step measure next actions :=
        le_highest measure next actions
      simp only [highest, stepped]
      omega

end ActionRuns
