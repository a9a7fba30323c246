import ExchangeConnectivity.SplitAgreement

/-!
# Maximal runs between delimiter characters

The first `split` steps over the characters of the delimiter set and returns
the maximal runs of other characters, in order.
-/

namespace ExchangeConnectivity

open ByteStrings BoundedLoops DelimitedLists FailingComputations

namespace StringUtilities

section Rounds

variable {input delimiter : Bytes}

theorem any_contains_iff (index : Nat) :
    (input[index]?.any fun character => delimiter.contains character) = true ↔
      SeparatorAt delimiter.contains input index := by
  rw [SeparatorAt]
  cases input[index]? with
  | none => simp
  | some character => simp

theorem findFirstOf_eq {first second : Nat}
    (found : FirstFrom (SeparatorAt delimiter.contains input) first second) :
    findFirstOf input delimiter first = second :=
  searchFrom_eq any_contains_iff found (Nat.le_of_lt found.here.lt)

theorem findFirstOf_eq_npos {first : Nat}
    (absent : ∀ index, first ≤ index → ¬ SeparatorAt delimiter.contains input index) :
    findFirstOf input delimiter first = npos :=
  searchFrom_eq_npos any_contains_iff absent

/-- Without a further delimiter the rest of the input is the last part. -/
theorem splitRound_absent (bound : input.length < 2 ^ 63) {state : SplitState}
    (inside : state.first < input.length)
    (absent : ∀ index, state.first ≤ index → ¬ SeparatorAt delimiter.contains input index) :
    splitRound input delimiter state =
      .ok (.done
        { state with output := state.output ++ [slice input state.first input.length] }) := by
  have large : npos = 2 ^ 64 - 1 := rfl
  have count : sizeType ((npos : Int) - state.first) = npos - state.first :=
    sizeType_eq (by omega) (by omega)
  have rest : substr input state.first (npos - state.first) =
      .ok (slice input state.first input.length) := by
    have clamped : (input.drop state.first).length ≤ npos - state.first := by
      rw [List.length_drop]
      omega
    rw [substr, if_pos (Nat.le_of_lt inside), slice_length, List.take_of_length_le clamped]
  have different : state.first ≠ npos := by omega
  simp only [splitRound, if_pos inside, findFirstOf_eq_npos absent, if_pos different, count, rest,
    ok_bind, if_true]
  rfl

/-- A delimiter where the round begins is stepped over. -/
theorem splitRound_here (bound : input.length < 2 ^ 63) {state : SplitState}
    (inside : state.first < input.length)
    (here : SeparatorAt delimiter.contains input state.first) :
    splitRound input delimiter state =
      .ok (.yield { state with first := state.first + 1 }) := by
  have next : sizeType ((state.first : Int) + 1) = state.first + 1 :=
    sizeType_eq (by omega) (by omega)
  simp only [splitRound, if_pos inside, findFirstOf_eq (firstFrom_start here), ne_eq,
    not_true_eq_false, if_false, if_neg (ne_npos (show state.first < 2 ^ 63 by omega)), next]
  rfl

/-- The characters before the next delimiter are a part. -/
theorem splitRound_found (bound : input.length < 2 ^ 63) {state : SplitState} {second : Nat}
    (found : FirstFrom (SeparatorAt delimiter.contains input) state.first second)
    (lt : state.first < second) :
    splitRound input delimiter state =
      .ok (.yield
        { first := second + 1
          output := state.output ++ [slice input state.first second] }) := by
  have within := found.here.lt
  have count : sizeType ((second : Int) - state.first) = second - state.first :=
    sizeType_eq (by omega) (by omega)
  have next : sizeType ((second : Int) + 1) = second + 1 := sizeType_eq (by omega) (by omega)
  have part : substr input state.first (second - state.first) =
      .ok (slice input state.first second) :=
    makesSlices_substr input state.first second (Nat.le_of_lt lt) (Nat.le_of_lt within)
  simp only [splitRound, if_pos (Nat.lt_trans lt within), findFirstOf_eq found,
    if_pos (Nat.ne_of_lt lt), count, part, ok_bind,
    if_neg (ne_npos (show second < 2 ^ 63 by omega)), next]
  rfl

/-- What every round keeps: the output is the slices at the runs before
`first`. -/
def Scanned (input delimiter : Bytes) (state : SplitState) : Prop :=
  ∃ runs, RunsBefore delimiter.contains input state.first runs ∧
    state.output = slices input runs

/-- What holds after the loop. -/
def Complete (input delimiter : Bytes) (state : SplitState) : Prop :=
  ∃ runs, MaximalRuns delimiter.contains input runs ∧ state.output = slices input runs ∧
    state.output.flatten = input.filter fun character => !delimiter.contains character

theorem slices_append (runs : List (Nat × Nat)) (first stop : Nat) :
    slices input (runs ++ [(first, stop)]) = slices input runs ++ [slice input first stop] := by
  rw [slices, List.map_append]
  rfl

theorem splitRound_cases (bound : input.length < 2 ^ 63) (state : SplitState)
    (scanned : Scanned input delimiter state) :
    (∃ next, splitRound input delimiter state = .ok (.yield next) ∧
        Scanned input delimiter next ∧
        input.length - next.first < input.length - state.first) ∨
      ∃ final, splitRound input delimiter state = .ok (.done final) ∧
        Complete input delimiter final := by
  obtain ⟨runs, before, outputEq⟩ := scanned
  by_cases inside : state.first < input.length
  · rcases none_or_firstFrom (SeparatorAt delimiter.contains input) state.first with
      absent | ⟨second, found⟩
    · have next : NextStop delimiter.contains input state.first input.length :=
        ⟨inside, Nat.le_refl _, fun other le _ => absent other le, .inl rfl⟩
      obtain ⟨maximal, flattened⟩ := before.last next
      refine .inr ⟨_, splitRound_absent bound inside absent, _, maximal, ?_, ?_⟩
      · rw [slices_append, outputEq]
      · rw [← flattened, slices_append, outputEq]
    · have within := found.here.lt
      rcases Nat.eq_or_lt_of_le found.le with here | lt
      · subst here
        refine .inl ⟨_, splitRound_here bound inside found.here,
          ⟨runs, before.skip found.here, outputEq⟩, ?_⟩
        show input.length - (state.first + 1) < _
        omega
      · have next : NextStop delimiter.contains input state.first second :=
          ⟨lt, Nat.le_of_lt within, found.before, .inr found.here⟩
        refine .inl ⟨_, splitRound_found bound found lt,
          ⟨_, before.run next found.here, ?_⟩, ?_⟩
        · rw [slices_append, outputEq]
        · show input.length - (second + 1) < _
          omega
  · have done : splitRound input delimiter state = .ok (.done state) := if_neg inside
    obtain ⟨maximal, flattened⟩ := before.complete (Nat.le_of_not_lt inside)
    exact .inr ⟨state, done, runs, maximal, outputEq, by rw [outputEq, flattened]⟩

end Rounds

/-- The parts returned are the slices of the input at its maximal runs. -/
structure SplitsIntoRuns (input delimiter : StdString) (runs : List (Nat × Nat))
    (parts : List Bytes) : Prop where
  returned : split input delimiter = .ok parts
  maximal : MaximalRuns delimiter.bytes.contains input.bytes runs
  slicesEq : parts = slices input.bytes runs
  nonempty : ∀ part ∈ parts, part ≠ []
  plain : ∀ part ∈ parts, ∀ character ∈ part, character ∉ delimiter.bytes
  flattened : parts.flatten = input.bytes.filter fun character => character ∉ delimiter.bytes
  whole : delimiter.bytes = [] → parts = if input.bytes = [] then [] else [input.bytes]

/-- For every input and every set of delimiters the parts are the maximal runs
of other characters. -/
theorem split_maximal_runs (input delimiter : StdString) :
    ∃ runs parts, SplitsIntoRuns input delimiter runs parts := by
  have initial : Scanned input.bytes delimiter.bytes { first := 0, output := [] } :=
    ⟨[], .start, rfl⟩
  obtain ⟨final, run, runs, maximal, outputEq, flattened⟩ :=
    loop_rule (splitRound_cases input.length_lt) initial
      (show input.bytes.length - 0 < rounds input.bytes by rw [rounds]; omega)
  refine ⟨runs, final.output, ?_⟩
  exact
    { returned := by
        rw [split, run, ok_bind]
      maximal
      slicesEq := outputEq
      nonempty := by
        intro part member
        rw [outputEq, slices, List.mem_map] at member
        obtain ⟨bounds, inside, rfl⟩ := member
        exact ((maximal.mem_iff bounds).mp inside).slice_ne_nil
      plain := by
        intro part member character inPart
        rw [outputEq, slices, List.mem_map] at member
        obtain ⟨bounds, inside, rfl⟩ := member
        have isRun := (maximal.mem_iff bounds).mp inside
        simpa using not_separator_of_mem_slice isRun.kept character inPart
      flattened := by
        rw [flattened]
        congr 1
        funext character
        simp
      whole := by
        intro empty
        have plain (position : Nat) :
            ¬ SeparatorAt delimiter.bytes.contains input.bytes position := by
          rintro ⟨character, -, contained⟩
          rw [empty] at contained
          cases contained
        rw [outputEq, maximal.eq_of_plain plain]
        split
        · rfl
        · simp [slices, slice] }

end StringUtilities

end ExchangeConnectivity
