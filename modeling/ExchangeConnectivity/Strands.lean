import ExchangeConnectivity.ActionRuns

/-!
# Machines on strands

A strand runs the events posted to it one at a time and in the order in which
they were posted; the completions of the machine's operations run on it as well,
at any point between them.  This file carries what the machine's runs satisfy
over to the machine on its strand.
-/

namespace Strands

open ActionRuns

variable {State Event : Type*} {step : State → Event → Option State}

/-- A machine with the events posted to its strand, the first to run at the
front, and the events that have run. -/
structure Strand (State Event : Type*) where
  machine : State
  posted : List Event := []
  ran : List Event := []

namespace Strand

def post (strand : Strand State Event) (event : Event) : Strand State Event :=
  { strand with posted := strand.posted ++ [event] }

/-- Run an event, if the machine accepts it. -/
def run (step : State → Event → Option State) (strand : Strand State Event)
    (event : Event) : Option (Strand State Event) :=
  (step strand.machine event).map fun next =>
    { strand with machine := next, ran := strand.ran ++ [event] }

/-- Run the event that was posted first. -/
def runPosted (step : State → Event → Option State) (strand : Strand State Event) :
    Option (Strand State Event) :=
  match strand.posted with
  | [] => none
  | event :: later => run step { strand with posted := later } event

theorem run_eq_some_iff {strand next : Strand State Event} {event : Event} :
    run step strand event = some next ↔
      ∃ machine, step strand.machine event = some machine ∧
        { strand with machine, ran := strand.ran ++ [event] } = next := by
  rw [run, Option.map_eq_some_iff]

theorem runPosted_eq_some_iff {strand next : Strand State Event} :
    runPosted step strand = some next ↔
      ∃ event later, strand.posted = event :: later ∧
        run step { strand with posted := later } event = some next := by
  rw [runPosted]
  cases posted : strand.posted with
  | nil => simp
  | cons event later => simp

end Strand

/-- The machine started in `start` and is where the events that ran have taken
it; `posts` are the events posted so far, which `isPosted` tells from
completions, and those of them that ran did so in their order. -/
structure Carries (step : State → Event → Option State) (isPosted : Event → Bool)
    (start : State) (posts : List Event) (strand : Strand State Event) : Prop where
  follows : runFrom step start strand.ran = some strand.machine
  in_order : strand.ran.filter isPosted ++ strand.posted = posts
  are_posts : ∀ event ∈ posts, isPosted event = true

variable {isPosted : Event → Bool} {start : State} {posts : List Event}
  {strand next : Strand State Event}

theorem carries_new (step : State → Event → Option State) (isPosted : Event → Bool)
    (start : State) : Carries step isPosted start [] { machine := start } :=
  ⟨rfl, rfl, fun _ member => absurd member List.not_mem_nil⟩

theorem Carries.post (carries : Carries step isPosted start posts strand) {event : Event}
    (isPost : isPosted event = true) :
    Carries step isPosted start (posts ++ [event]) (strand.post event) where
  follows := carries.follows
  in_order := by
    rw [← carries.in_order, List.append_assoc]
    rfl
  are_posts := by
    intro other member
    rw [List.mem_append, List.mem_singleton] at member
    rcases member with member | rfl
    · exact carries.are_posts other member
    · exact isPost

/-- A completion is run between the posted events and leaves them as they are. -/
theorem Carries.run (carries : Carries step isPosted start posts strand) {event : Event}
    (completion : isPosted event = false) (ran : Strand.run step strand event = some next) :
    Carries step isPosted start posts next := by
  obtain ⟨machine, stepped, rfl⟩ := Strand.run_eq_some_iff.mp ran
  refine ⟨runFrom_concat carries.follows stepped, ?_, carries.are_posts⟩
  rw [← carries.in_order]
  simp [completion]

theorem Carries.runPosted (carries : Carries step isPosted start posts strand)
    (ran : Strand.runPosted step strand = some next) :
    Carries step isPosted start posts next := by
  obtain ⟨event, later, posted, ranEvent⟩ := Strand.runPosted_eq_some_iff.mp ran
  obtain ⟨machine, stepped, rfl⟩ := Strand.run_eq_some_iff.mp ranEvent
  have isPost : isPosted event = true := by
    refine carries.are_posts event ?_
    rw [← carries.in_order, posted]
    exact List.mem_append_right _ List.mem_cons_self
  refine ⟨runFrom_concat carries.follows stepped, ?_, carries.are_posts⟩
  rw [← carries.in_order, posted]
  simp [isPost]

/-- The posted events that have run are the first of those posted. -/
theorem Carries.ran_prefix (carries : Carries step isPosted start posts strand) :
    strand.ran.filter isPosted <+: posts :=
  ⟨strand.posted, carries.in_order⟩

theorem Carries.ran_eq (carries : Carries step isPosted start posts strand)
    (idle : strand.posted = []) : strand.ran.filter isPosted = posts := by
  rw [← carries.in_order, idle, List.append_nil]

end Strands
