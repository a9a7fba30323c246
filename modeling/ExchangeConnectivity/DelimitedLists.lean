import Mathlib.Data.Nat.Find
import Mathlib.Tactic.Common

/-!
# Lists cut at delimiters

A list is cut at the leftmost non-overlapping occurrences of a delimiter, or
into its maximal runs of symbols that are not separators.  Both are described
by positions in the list.
-/

namespace DelimitedLists

/-- The first position from `start` on with a property. -/
structure FirstFrom (holds : Nat → Prop) (start position : Nat) : Prop where
  le : start ≤ position
  here : holds position
  before : ∀ other, start ≤ other → other < position → ¬ holds other

theorem none_or_firstFrom (holds : Nat → Prop) (start : Nat) :
    (∀ position, start ≤ position → ¬ holds position) ∨
      ∃ position, FirstFrom holds start position := by
  classical
  by_cases some : ∃ position, start ≤ position ∧ holds position
  · obtain ⟨le, here⟩ := Nat.find_spec some
    refine .inr ⟨Nat.find some, le, here, ?_⟩
    intro other otherLe below otherHere
    exact Nat.find_min some below ⟨otherLe, otherHere⟩
  · exact .inl fun position le here => some ⟨position, le, here⟩

theorem firstFrom_start {holds : Nat → Prop} {start : Nat} (here : holds start) :
    FirstFrom holds start start :=
  ⟨Nat.le_refl start, here, fun _ le below => absurd below (Nat.not_lt_of_le le)⟩

theorem FirstFrom.unique {holds : Nat → Prop} {start position other : Nat}
    (first : FirstFrom holds start position) (firstOther : FirstFrom holds start other) :
    position = other := by
  rcases Nat.lt_trichotomy position other with less | equal | greater
  · exact absurd first.here (firstOther.before position first.le less)
  · exact equal
  · exact absurd firstOther.here (first.before other firstOther.le greater)

section Lists

variable {Symbol : Type*} {symbols : List Symbol}

/-- The slice of a list between two positions. -/
def slice (symbols : List Symbol) (first stop : Nat) : List Symbol :=
  (symbols.drop first).take (stop - first)

theorem slice_append_drop {first stop : Nat} (le : first ≤ stop) :
    slice symbols first stop ++ symbols.drop stop = symbols.drop first := by
  have split : symbols.drop stop = (symbols.drop first).drop (stop - first) := by
    rw [List.drop_drop, Nat.add_sub_cancel' le]
  rw [slice, split, List.take_append_drop]

theorem take_append_slice {first stop : Nat} (le : first ≤ stop) :
    symbols.take first ++ slice symbols first stop = symbols.take stop := by
  rw [slice, ← List.take_add, Nat.add_sub_cancel' le]

theorem length_slice {first stop : Nat} (inside : stop ≤ symbols.length) :
    (slice symbols first stop).length = stop - first := by
  rw [slice, List.length_take, List.length_drop]
  omega

theorem slice_length (symbols : List Symbol) (first : Nat) :
    slice symbols first symbols.length = symbols.drop first := by
  rw [slice, List.take_of_length_le (by rw [List.length_drop])]

section Cuts

variable {delimiter : List Symbol}

def OccursAt (delimiter symbols : List Symbol) (position : Nat) : Prop :=
  delimiter <+: symbols.drop position

/-- The positions of the leftmost occurrences of the delimiter from a position
on, each looked for after the end of the one before. -/
inductive LeftmostCuts (delimiter symbols : List Symbol) : Nat → List Nat → Prop
  | none {start : Nat}
      (absent : ∀ position, start ≤ position → ¬ OccursAt delimiter symbols position) :
      LeftmostCuts delimiter symbols start []
  | cut {start first : Nat} {later : List Nat}
      (found : FirstFrom (OccursAt delimiter symbols) start first)
      (others : LeftmostCuts delimiter symbols (first + delimiter.length) later) :
      LeftmostCuts delimiter symbols start (first :: later)

/-- The parts from a position on, between the cuts of this width. -/
def partsBetween (width : Nat) (symbols : List Symbol) : Nat → List Nat → List (List Symbol)
  | start, [] => [symbols.drop start]
  | start, first :: later =>
      slice symbols start first :: partsBetween width symbols (first + width) later

theorem length_partsBetween (width start : Nat) (cuts : List Nat) :
    (partsBetween width symbols start cuts).length = cuts.length + 1 := by
  induction cuts generalizing start with
  | nil => rfl
  | cons first later ih => rw [partsBetween, List.length_cons, ih, List.length_cons]

theorem partsBetween_ne_nil (width start : Nat) (cuts : List Nat) :
    partsBetween width symbols start cuts ≠ [] := by
  cases cuts <;> exact List.cons_ne_nil _ _

theorem OccursAt.drop_eq {position : Nat} (occurs : OccursAt delimiter symbols position) :
    symbols.drop position = delimiter ++ symbols.drop (position + delimiter.length) := by
  obtain ⟨rest, restEq⟩ := occurs
  rw [← List.drop_drop, ← restEq, List.drop_left]

theorem OccursAt.end_le {position : Nat} (occurs : OccursAt delimiter symbols position)
    (nonempty : delimiter ≠ []) : position + delimiter.length ≤ symbols.length := by
  have positive : 0 < delimiter.length := List.length_pos_iff.mpr nonempty
  have le := occurs.length_le
  rw [List.length_drop] at le
  omega

/-- An occurrence in a slice is an occurrence in the list, within the slice. -/
theorem exists_occursAt_of_infix_slice {first stop : Nat}
    (inside : delimiter <:+: slice symbols first stop) :
    ∃ position, first ≤ position ∧ position + delimiter.length ≤ max first stop ∧
      OccursAt delimiter symbols position := by
  obtain ⟨before, after, shape⟩ := inside
  have length := congrArg List.length shape
  simp only [slice, List.length_append, List.length_take] at length
  refine ⟨first + before.length, Nat.le_add_right _ _, by omega, ?_⟩
  have whole := List.take_append_drop (stop - first) (symbols.drop first)
  rw [← slice, ← shape, List.append_assoc, List.append_assoc] at whole
  refine ⟨after ++ (symbols.drop first).drop (stop - first), ?_⟩
  generalize (symbols.drop first).drop (stop - first) = rest at whole ⊢
  rw [← List.drop_drop, ← whole, List.drop_left]

theorem exists_occursAt_of_infix_drop {start : Nat} (inside : delimiter <:+: symbols.drop start) :
    ∃ position, start ≤ position ∧ OccursAt delimiter symbols position := by
  obtain ⟨before, after, shape⟩ := inside
  refine ⟨start + before.length, Nat.le_add_right _ _, after, ?_⟩
  rw [← List.drop_drop, ← shape, List.append_assoc, List.drop_left]

/-- A list has its cuts for every delimiter that is not empty. -/
theorem exists_leftmostCuts (nonempty : delimiter ≠ []) (symbols : List Symbol) (start : Nat) :
    ∃ cuts, LeftmostCuts delimiter symbols start cuts := by
  have positive : 0 < delimiter.length := List.length_pos_iff.mpr nonempty
  induction left : symbols.length - start using Nat.strong_induction_on generalizing start with
  | _ left ih =>
      rcases none_or_firstFrom (OccursAt delimiter symbols) start with absent | ⟨first, found⟩
      · exact ⟨[], .none absent⟩
      · have le := found.le
        have inside := found.here.end_le nonempty
        obtain ⟨later, others⟩ := ih _ (by omega) (first + delimiter.length) rfl
        exact ⟨first :: later, .cut found others⟩

namespace LeftmostCuts

variable {start : Nat} {cuts other : List Nat}

theorem unique (leftmost : LeftmostCuts delimiter symbols start cuts)
    (leftmostOther : LeftmostCuts delimiter symbols start other) : cuts = other := by
  induction leftmost generalizing other with
  | none absent =>
      cases leftmostOther with
      | none => rfl
      | cut found => exact absurd found.here (absent _ found.le)
  | cut found others ih =>
      cases leftmostOther with
      | none absent => exact absurd found.here (absent _ found.le)
      | cut foundOther othersOther =>
          obtain rfl := found.unique foundOther
          rw [ih othersOther]

/-- The parts joined by the delimiter give back the list. -/
theorem intercalate_partsBetween (leftmost : LeftmostCuts delimiter symbols start cuts) :
    delimiter.intercalate (partsBetween delimiter.length symbols start cuts) =
      symbols.drop start := by
  induction leftmost with
  | none absent => exact List.intercalate_singleton
  | cut found others ih =>
      rw [partsBetween, List.intercalate_cons_of_ne_nil (partsBetween_ne_nil _ _ _), ih,
        List.append_assoc, ← found.here.drop_eq, slice_append_drop found.le]

/-- No part contains the delimiter. -/
theorem not_infix_of_mem (leftmost : LeftmostCuts delimiter symbols start cuts)
    (nonempty : delimiter ≠ []) :
    ∀ part ∈ partsBetween delimiter.length symbols start cuts, ¬ delimiter <:+: part := by
  have positive : 0 < delimiter.length := List.length_pos_iff.mpr nonempty
  induction leftmost with
  | none absent =>
      intro part member inside
      rw [partsBetween, List.mem_singleton] at member
      subst member
      obtain ⟨position, le, occurs⟩ := exists_occursAt_of_infix_drop inside
      exact absent position le occurs
  | cut found others ih =>
      intro part member inside
      rw [partsBetween, List.mem_cons] at member
      rcases member with rfl | later
      · obtain ⟨position, le, before, occurs⟩ := exists_occursAt_of_infix_slice inside
        have bound := found.le
        exact found.before position le (by omega) occurs
      · exact ih part later inside

end LeftmostCuts

end Cuts

section Runs

variable {separator : Symbol → Bool}

def SeparatorAt (separator : Symbol → Bool) (symbols : List Symbol) (position : Nat) : Prop :=
  ∃ symbol, symbols[position]? = some symbol ∧ separator symbol = true

/-- A stretch without separators that reaches on both sides to a separator or
to the end of the list. -/
structure MaximalRun (separator : Symbol → Bool) (symbols : List Symbol) (first stop : Nat) :
    Prop where
  nonempty : first < stop
  inside : stop ≤ symbols.length
  kept : ∀ position, first ≤ position → position < stop → ¬ SeparatorAt separator symbols position
  starts : first = 0 ∨ SeparatorAt separator symbols (first - 1)
  ends : stop = symbols.length ∨ SeparatorAt separator symbols stop

/-- All the maximal runs of a list, in order. -/
structure MaximalRuns (separator : Symbol → Bool) (symbols : List Symbol)
    (runs : List (Nat × Nat)) : Prop where
  mem_iff : ∀ run, run ∈ runs ↔ MaximalRun separator symbols run.1 run.2
  ordered : runs.Pairwise fun run later => run.2 < later.1

/-- The slices of the list at the runs. -/
def slices (symbols : List Symbol) (runs : List (Nat × Nat)) : List (List Symbol) :=
  runs.map fun run => slice symbols run.1 run.2

theorem SeparatorAt.lt {position : Nat} (here : SeparatorAt separator symbols position) :
    position < symbols.length := by
  obtain ⟨symbol, found, -⟩ := here
  exact (List.getElem?_eq_some_iff.mp found).1

theorem MaximalRun.slice_ne_nil {first stop : Nat}
    (maximal : MaximalRun separator symbols first stop) : slice symbols first stop ≠ [] := by
  have nonempty := maximal.nonempty
  rw [← List.length_pos_iff, length_slice maximal.inside]
  omega

/-- A list without separators is one run, or has none when it is empty. -/
theorem MaximalRuns.eq_of_plain {runs : List (Nat × Nat)}
    (maximal : MaximalRuns separator symbols runs)
    (plain : ∀ position, ¬ SeparatorAt separator symbols position) :
    runs = if symbols = [] then [] else [(0, symbols.length)] := by
  have mem_iff (run : Nat × Nat) : run ∈ runs ↔ run = (0, symbols.length) ∧ symbols ≠ [] := by
    rw [maximal.mem_iff]
    constructor
    · intro isRun
      have firstEq := isRun.starts.resolve_right (plain _)
      have stopEq := isRun.ends.resolve_right (plain _)
      refine ⟨Prod.ext firstEq stopEq, ?_⟩
      rintro rfl
      have nonempty := isRun.nonempty
      rw [stopEq] at nonempty
      exact absurd nonempty (Nat.not_lt_zero _)
    · rintro ⟨rfl, nonempty⟩
      exact
        { nonempty := List.length_pos_iff.mpr nonempty
          inside := Nat.le_refl _
          kept := fun position _ _ => plain position
          starts := .inl rfl
          ends := .inl rfl }
  by_cases empty : symbols = []
  · rw [if_pos empty]
    exact List.eq_nil_iff_forall_not_mem.mpr fun run member => ((mem_iff run).mp member).2 empty
  · rw [if_neg empty]
    have whole := (mem_iff (0, symbols.length)).mpr ⟨rfl, empty⟩
    match runs, maximal.ordered with
    | [], _ => cases whole
    | [run], _ => rw [List.mem_singleton.mp whole]
    | run :: later :: others, ordered =>
        have less := (List.pairwise_cons.mp ordered).1 later List.mem_cons_self
        rw [((mem_iff later).mp (List.mem_cons_of_mem _ List.mem_cons_self)).1] at less
        exact absurd less (Nat.not_lt_zero _)

theorem not_separator_of_mem_slice {first stop : Nat}
    (kept : ∀ position, first ≤ position → position < stop →
      ¬ SeparatorAt separator symbols position) :
    ∀ symbol ∈ slice symbols first stop, separator symbol = false := by
  intro symbol member
  obtain ⟨index, found⟩ := List.mem_iff_getElem?.mp member
  rw [slice, List.getElem?_take, List.getElem?_drop] at found
  by_cases below : index < stop - first
  · rw [if_pos below] at found
    have plain := kept (first + index) (Nat.le_add_right _ _) (by omega)
    cases isSeparator : separator symbol with
    | false => rfl
    | true => exact absurd ⟨symbol, found, isSeparator⟩ plain
  · rw [if_neg below] at found
    cases found

/-- A stop after a position such that all between them is part of one run. -/
structure NextStop (separator : Symbol → Bool) (symbols : List Symbol) (position stop : Nat) :
    Prop where
  lt : position < stop
  inside : stop ≤ symbols.length
  kept : ∀ other, position ≤ other → other < stop → ¬ SeparatorAt separator symbols other
  ends : stop = symbols.length ∨ SeparatorAt separator symbols stop

/-- What a scan knows at a position before which it has found these runs. -/
structure RunsBefore (separator : Symbol → Bool) (symbols : List Symbol) (position : Nat)
    (runs : List (Nat × Nat)) : Prop where
  boundary : position = 0 ∨ SeparatorAt separator symbols (position - 1)
  mem_iff : ∀ run, run ∈ runs ↔ MaximalRun separator symbols run.1 run.2 ∧ run.2 < position
  ordered : runs.Pairwise fun run later => run.2 < later.1
  flatten_eq : (slices symbols runs).flatten =
    (symbols.take position).filter fun symbol => !separator symbol

namespace RunsBefore

theorem start : RunsBefore separator symbols 0 [] where
  boundary := .inl rfl
  mem_iff := by simp
  ordered := .nil
  flatten_eq := rfl

variable {position stop : Nat} {runs : List (Nat × Nat)}

/-- No run ends where a scan stands. -/
theorem stop_ne (scanned : RunsBefore separator symbols position runs) {run : Nat × Nat}
    (maximal : MaximalRun separator symbols run.1 run.2) : run.2 ≠ position := by
  intro equal
  have nonempty := maximal.nonempty
  rcases scanned.boundary with zero | before
  · omega
  · exact maximal.kept _ (by omega) (by omega) before

theorem filter_take_succ (here : SeparatorAt separator symbols position) :
    (symbols.take (position + 1)).filter (fun symbol => !separator symbol) =
      (symbols.take position).filter fun symbol => !separator symbol := by
  obtain ⟨symbol, found, isSeparator⟩ := here
  rw [List.take_add_one, found, List.filter_append]
  simp [isSeparator]

/-- A separator where the scan stands is stepped over. -/
theorem skip (scanned : RunsBefore separator symbols position runs)
    (here : SeparatorAt separator symbols position) :
    RunsBefore separator symbols (position + 1) runs where
  boundary := .inr here
  mem_iff := by
    intro run
    rw [scanned.mem_iff]
    constructor
    · rintro ⟨maximal, before⟩
      exact ⟨maximal, Nat.lt_succ_of_lt before⟩
    · rintro ⟨maximal, before⟩
      have different := scanned.stop_ne maximal
      exact ⟨maximal, by omega⟩
  ordered := scanned.ordered
  flatten_eq := by rw [scanned.flatten_eq, filter_take_succ here]

theorem maximalRun (scanned : RunsBefore separator symbols position runs)
    (next : NextStop separator symbols position stop) :
    MaximalRun separator symbols position stop :=
  { next with nonempty := next.lt, starts := scanned.boundary }

/-- The run up to the next stop is the only one that ends after the position of
the scan and not after that stop. -/
theorem mem_append_iff (scanned : RunsBefore separator symbols position runs)
    (next : NextStop separator symbols position stop) (run : Nat × Nat) :
    run ∈ runs ++ [(position, stop)] ↔
      MaximalRun separator symbols run.1 run.2 ∧ run.2 ≤ stop := by
  rw [List.mem_append, List.mem_singleton, scanned.mem_iff]
  have lt := next.lt
  constructor
  · rintro (⟨maximal, before⟩ | rfl)
    · exact ⟨maximal, by omega⟩
    · exact ⟨scanned.maximalRun next, Nat.le_refl _⟩
  · rintro ⟨maximal, le⟩
    have different := scanned.stop_ne maximal
    have nonempty := maximal.nonempty
    by_cases before : run.2 < position
    · exact .inl ⟨maximal, before⟩
    · have firstEq : run.1 = position := by
        rcases Nat.lt_trichotomy run.1 position with less | equal | greater
        · rcases scanned.boundary with zero | separated
          · omega
          · exact absurd separated (maximal.kept _ (by omega) (by omega))
        · exact equal
        · rcases maximal.starts with zero | separated
          · omega
          · exact absurd separated (next.kept _ (by omega) (by omega))
      have stopEq : run.2 = stop := by
        rcases Nat.lt_or_ge run.2 stop with less | ge
        · have inside := next.inside
          rcases maximal.ends with whole | separated
          · omega
          · exact absurd separated (next.kept _ (by omega) less)
        · omega
      exact .inr (Prod.ext firstEq stopEq)

theorem ordered_append (scanned : RunsBefore separator symbols position runs) :
    (runs ++ [(position, stop)]).Pairwise fun run later => run.2 < later.1 := by
  rw [List.pairwise_append]
  refine ⟨scanned.ordered, List.pairwise_singleton _ _, ?_⟩
  intro run member later last
  rw [List.mem_singleton.mp last]
  exact ((scanned.mem_iff run).mp member).2

theorem flatten_append (scanned : RunsBefore separator symbols position runs)
    (next : NextStop separator symbols position stop) :
    (slices symbols (runs ++ [(position, stop)])).flatten =
      (symbols.take stop).filter fun symbol => !separator symbol := by
  have plain : (slice symbols position stop).filter (fun symbol => !separator symbol) =
      slice symbols position stop := by
    rw [List.filter_eq_self]
    intro symbol member
    rw [not_separator_of_mem_slice next.kept symbol member]
    rfl
  have flattened := scanned.flatten_eq
  rw [slices] at flattened
  rw [slices, List.map_append, List.flatten_append, flattened,
    ← take_append_slice (Nat.le_of_lt next.lt), List.filter_append, plain]
  simp

/-- A run that a separator ends is added. -/
theorem run (scanned : RunsBefore separator symbols position runs)
    (next : NextStop separator symbols position stop)
    (separated : SeparatorAt separator symbols stop) :
    RunsBefore separator symbols (stop + 1) (runs ++ [(position, stop)]) where
  boundary := .inr separated
  mem_iff := fun run => by rw [scanned.mem_append_iff next, Nat.lt_succ_iff]
  ordered := scanned.ordered_append
  flatten_eq := by rw [scanned.flatten_append next, filter_take_succ separated]

/-- At the end of the list all runs have been found. -/
theorem complete (scanned : RunsBefore separator symbols position runs)
    (atEnd : symbols.length ≤ position) :
    MaximalRuns separator symbols runs ∧
      (slices symbols runs).flatten = symbols.filter fun symbol => !separator symbol := by
  refine ⟨⟨fun run => ?_, scanned.ordered⟩, ?_⟩
  · rw [scanned.mem_iff, and_iff_left_iff_imp]
    intro maximal
    have different := scanned.stop_ne maximal
    have inside := maximal.inside
    omega
  · rw [scanned.flatten_eq, List.take_of_length_le atEnd]

/-- A run up to the end of the list is the last one. -/
theorem last (scanned : RunsBefore separator symbols position runs)
    (next : NextStop separator symbols position symbols.length) :
    MaximalRuns separator symbols (runs ++ [(position, symbols.length)]) ∧
      (slices symbols (runs ++ [(position, symbols.length)])).flatten =
        symbols.filter fun symbol => !separator symbol := by
  refine ⟨⟨fun run => ?_, scanned.ordered_append⟩, ?_⟩
  · rw [scanned.mem_append_iff next, and_iff_left_iff_imp]
    exact fun maximal => maximal.inside
  · rw [scanned.flatten_append next, List.take_length]

end RunsBefore

end Runs

end Lists

end DelimitedLists
