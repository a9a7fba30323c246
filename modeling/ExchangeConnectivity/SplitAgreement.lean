import ExchangeConnectivity.DelimitedLists
import ExchangeConnectivity.StringSplitting

/-!
# Agreement of the splitting functions

For a delimiter that is not empty the second `split` and `split_to` return the
parts between the leftmost occurrences of the delimiter.  An empty delimiter is
found again wherever the search stands, so the search does not end.
-/

namespace ExchangeConnectivity

open ByteStrings BoundedLoops DelimitedLists FailingComputations

namespace StringUtilities

section Searches

variable {test : Nat → Bool} {holds : Nat → Prop} {str : Bytes} {position index : Nat}

theorem searchFrom_eq (decides : ∀ index, test index = true ↔ holds index)
    (first : FirstFrom holds position index) (inside : index ≤ str.length) :
    searchFrom test str position = index := by
  have le := first.le
  have found : (List.range' position (str.length + 1 - position)).find? test = some index := by
    rw [List.find?_range'_eq_some]
    refine ⟨(decides index).mpr first.here, by rw [List.mem_range'_1]; omega, ?_⟩
    intro other otherLe below
    have absent := mt (decides other).mp (first.before other otherLe below)
    simpa using absent
  rw [searchFrom, found, Option.getD_some]

theorem searchFrom_eq_npos (decides : ∀ index, test index = true ↔ holds index)
    (absent : ∀ index, position ≤ index → ¬ holds index) :
    searchFrom test str position = npos := by
  have missing : (List.range' position (str.length + 1 - position)).find? test = none := by
    rw [List.find?_range'_eq_none]
    intro other otherLe _
    have notHere := mt (decides other).mp (absent other otherLe)
    simpa using notHere
  rw [searchFrom, missing, Option.getD_none]

theorem isPrefixOf_drop_iff (needle : Bytes) (index : Nat) :
    needle.isPrefixOf (str.drop index) = true ↔ OccursAt needle str index :=
  List.isPrefixOf_iff_prefix

theorem find_eq {needle : Bytes} (first : FirstFrom (OccursAt needle str) position index)
    (inside : index ≤ str.length) : find str needle position = index :=
  searchFrom_eq (isPrefixOf_drop_iff needle) first inside

theorem find_eq_npos {needle : Bytes}
    (absent : ∀ index, position ≤ index → ¬ OccursAt needle str index) :
    find str needle position = npos :=
  searchFrom_eq_npos (isPrefixOf_drop_iff needle) absent

theorem ne_npos (bound : index < 2 ^ 63) : index ≠ npos := by
  have large : npos = 2 ^ 64 - 1 := rfl
  omega

end Searches

/-- The way of making a part from a position and a length gives the slice of
the string. -/
def MakesSlices (part : Nat → Nat → Except Fault Bytes) (str : Bytes) : Prop :=
  ∀ first stop, first ≤ stop → stop ≤ str.length →
    part first (stop - first) = .ok (slice str first stop)

theorem makesSlices_substr (str : Bytes) : MakesSlices (substr str) str :=
  fun _ _ le inside => if_pos (Nat.le_trans le inside)

theorem makesSlices_stringView (str : Bytes) : MakesSlices (stringView str) str :=
  fun first stop le inside => if_pos (by omega)

section Loop

variable {part : Nat → Nat → Except Fault Bytes} {str delimiter : Bytes}

/-- A round that finds the delimiter goes on after it. -/
theorem searchRound_found (makes : MakesSlices part str) (bound : str.length < 2 ^ 63)
    {state : SearchState} {first : Nat}
    (found : FirstFrom (OccursAt delimiter str) state.prev first)
    (inside : first + delimiter.length ≤ str.length) :
    searchRound part str delimiter state =
      .ok (.yield
        { prev := first + delimiter.length
          parts := state.parts ++ [slice str state.prev first] }) := by
  have le := found.le
  have position : find str delimiter state.prev = first := find_eq found (by omega)
  have length : sizeType ((first : Int) - state.prev) = first - state.prev :=
    sizeType_eq (by omega) (by omega)
  have next : sizeType ((first : Int) + delimiter.length) = first + delimiter.length :=
    sizeType_eq (by omega) (by omega)
  simp only [searchRound, position, if_pos (ne_npos (show first < 2 ^ 63 by omega)), length, next]
  rw [makes state.prev first le (by omega)]
  rfl

theorem searchRound_absent {state : SearchState}
    (absent : ∀ position, state.prev ≤ position → ¬ OccursAt delimiter str position) :
    searchRound part str delimiter state = .ok (.done state) := by
  simp only [searchRound, find_eq_npos absent, ne_eq, not_true_eq_false, if_false]

/-- The loop makes the parts before the cuts, and stops where the last part
begins. -/
theorem loop_searchRound (makes : MakesSlices part str) (bound : str.length < 2 ^ 63)
    (nonempty : delimiter ≠ []) {start : Nat} {cuts : List Nat} (inside : start ≤ str.length)
    (leftmost : LeftmostCuts delimiter str start cuts) {rounds : Nat}
    (enough : cuts.length < rounds) (before : List Bytes) :
    ∃ state, loop Fault.unfinished (searchRound part str delimiter) rounds
        { prev := start, parts := before } = .ok state ∧
      state.prev ≤ str.length ∧
      state.parts ++ [str.drop state.prev] =
        before ++ partsBetween delimiter.length str start cuts := by
  induction leftmost generalizing rounds before with
  | @none start absent =>
      obtain ⟨rounds, rfl⟩ : ∃ fewer, rounds = fewer + 1 := ⟨rounds - 1, by omega⟩
      refine ⟨{ prev := start, parts := before }, ?_, inside, rfl⟩
      exact loop_done (searchRound_absent absent) rounds
  | @cut start first later found others ih =>
      rw [List.length_cons] at enough
      obtain ⟨rounds, rfl⟩ : ∃ fewer, rounds = fewer + 1 := ⟨rounds - 1, by omega⟩
      have within := found.here.end_le nonempty
      obtain ⟨state, run, stateInside, partsEq⟩ :=
        ih within (show later.length < rounds by omega) (before ++ [slice str start first])
      refine ⟨state, ?_, stateInside, ?_⟩
      · rw [loop_yield (searchRound_found makes bound found within)]
        exact run
      · rw [partsEq, partsBetween, List.append_assoc, List.singleton_append]

theorem searchParts_eq (makes : MakesSlices part str) (bound : str.length < 2 ^ 63)
    (nonempty : delimiter ≠ []) {cuts : List Nat} (leftmost : LeftmostCuts delimiter str 0 cuts)
    {rounds : Nat} (enough : cuts.length < rounds) :
    searchParts rounds part str delimiter = .ok (partsBetween delimiter.length str 0 cuts) := by
  obtain ⟨state, run, inside, partsEq⟩ :=
    loop_searchRound makes bound nonempty (Nat.zero_le _) leftmost enough []
  have length : sizeType ((str.length : Int) - state.prev) = str.length - state.prev :=
    sizeType_eq (by omega) (by omega)
  simp only [searchParts, run, ok_bind, length]
  rw [makes state.prev str.length inside (Nat.le_refl _), ok_bind, slice_length, partsEq,
    List.nil_append]

/-- The search for an empty delimiter stays where it is. -/
theorem searchRound_empty (makes : MakesSlices part str) (bound : str.length < 2 ^ 63)
    {state : SearchState} (inside : state.prev ≤ str.length) :
    searchRound part str [] state =
      .ok (.yield
        { prev := state.prev
          parts := state.parts ++ [slice str state.prev state.prev] }) := by
  have here : OccursAt [] str state.prev := List.nil_prefix
  exact searchRound_found makes bound (firstFrom_start here) inside

theorem searchParts_empty (makes : MakesSlices part str) (bound : str.length < 2 ^ 63)
    (rounds : Nat) : searchParts rounds part str [] = .error .unfinished := by
  have goesOn (state : SearchState) (inside : state.prev ≤ str.length) :
      ∃ next, searchRound part str [] state = .ok (.yield next) ∧ next.prev ≤ str.length :=
    ⟨_, searchRound_empty makes bound inside, inside⟩
  have unfinished : loop Fault.unfinished (searchRound part str []) rounds
      { prev := 0, parts := [] } = .error .unfinished :=
    loop_unfinished goesOn (Nat.zero_le _) rounds
  rw [searchParts, unfinished, error_bind]

end Loop

/-- Both functions return these parts, which are those between the cuts. -/
structure SplitsAgree (allocates : Nat → Bool) (str : StdString) (partsExpected : Nat)
    (delimiter : StdString) (cuts : List Nat) (parts : List Bytes) : Prop where
  leftmost : ∀ other, LeftmostCuts delimiter.bytes str.bytes 0 other ↔ other = cuts
  between : parts = partsBetween delimiter.bytes.length str.bytes 0 cuts
  split : Returns (fun rounds => splitExpecting allocates rounds str partsExpected delimiter) parts
  splitTo : ∀ old, Returns (fun rounds => splitTo rounds str old delimiter) parts
  joined : delimiter.bytes.intercalate parts = str.bytes
  plain : ∀ part ∈ parts, ¬ delimiter.bytes <:+: part
  counted : parts.length = cuts.length + 1

section Reserving

variable {allocates : Nat → Bool} {partsExpected : Nat}

theorem splitExpecting_of_reserve (reserved : reserve allocates partsExpected = .ok ())
    (rounds : Nat) (str delimiter : StdString) :
    splitExpecting allocates rounds str partsExpected delimiter =
      searchParts rounds (substr str.bytes) str.bytes delimiter.bytes := by
  rw [splitExpecting, reserved, ok_bind]

theorem splitExpecting_of_not_reserve {fault : Fault}
    (refused : reserve allocates partsExpected = .error fault)
    (rounds : Nat) (str delimiter : StdString) :
    splitExpecting allocates rounds str partsExpected delimiter = .error fault := by
  rw [splitExpecting, refused, error_bind]

theorem reserve_ne_unfinished : reserve allocates partsExpected ≠ .error .unfinished := by
  rw [reserve]
  split_ifs <;> nofun

theorem splitExpecting_returns {str delimiter : StdString} (nonempty : delimiter.bytes ≠ [])
    (reserved : reserve allocates partsExpected = .ok ()) {cuts : List Nat}
    (leftmost : LeftmostCuts delimiter.bytes str.bytes 0 cuts) :
    Returns (fun rounds => splitExpecting allocates rounds str partsExpected delimiter)
      (partsBetween delimiter.bytes.length str.bytes 0 cuts) :=
  ⟨cuts.length + 1, fun rounds enough =>
    (splitExpecting_of_reserve reserved rounds str delimiter).trans
      (searchParts_eq (makesSlices_substr _) str.length_lt nonempty leftmost enough)⟩

end Reserving

theorem splitTo_returns {str delimiter : StdString} (nonempty : delimiter.bytes ≠ [])
    (old : List Bytes) {cuts : List Nat}
    (leftmost : LeftmostCuts delimiter.bytes str.bytes 0 cuts) :
    Returns (fun rounds => splitTo rounds str old delimiter)
      (partsBetween delimiter.bytes.length str.bytes 0 cuts) :=
  ⟨cuts.length + 1, fun _ enough =>
    searchParts_eq (makesSlices_stringView _) str.length_lt nonempty leftmost enough⟩

/-- For a delimiter that is not empty, and as many expected parts as `reserve`
grants, the functions agree on the parts between the leftmost cuts. -/
theorem splits_agree (allocates : Nat → Bool) (str delimiter : StdString)
    (nonempty : delimiter.bytes ≠ []) {partsExpected : Nat}
    (reserved : reserve allocates partsExpected = .ok ()) :
    ∃ cuts parts, SplitsAgree allocates str partsExpected delimiter cuts parts := by
  obtain ⟨cuts, leftmost⟩ := exists_leftmostCuts nonempty str.bytes 0
  refine ⟨cuts, partsBetween delimiter.bytes.length str.bytes 0 cuts, ?_⟩
  exact
    { leftmost := by
        intro other
        constructor
        · intro leftmostOther
          exact leftmostOther.unique leftmost
        · rintro rfl
          exact leftmost
      between := rfl
      split := splitExpecting_returns nonempty reserved leftmost
      splitTo := fun old => splitTo_returns nonempty old leftmost
      joined := leftmost.intercalate_partsBetween
      plain := leftmost.not_infix_of_mem nonempty
      counted := length_partsBetween _ _ _ }

/-- With memory for a thousand strings. -/
theorem splits_agree_underscores :
    ∃ cuts parts, SplitsAgree (fun count => count ≤ 1000) ⟨ascii "__11_22___33_", by decide⟩ 10
      ⟨ascii "__", by decide⟩ cuts parts :=
  splits_agree (fun count => count ≤ 1000) ⟨ascii "__11_22___33_", by decide⟩
    ⟨ascii "__", by decide⟩ (by decide) (by decide)

/-- However much memory there is, no vector can have the largest size, so
nothing is returned for it. -/
theorem split_refuses_largest_size :
    (∀ rounds, splitExpecting (fun _ => true) rounds ⟨ascii "11_22", by decide⟩ (2 ^ 64 - 1)
        ⟨ascii "_", by decide⟩ = .error .lengthError) ∧
      splitTo 2 ⟨ascii "11_22", by decide⟩ [] ⟨ascii "_", by decide⟩ =
        .ok [ascii "11", ascii "22"] ∧
      ¬ ∃ cuts parts, SplitsAgree (fun _ => true) ⟨ascii "11_22", by decide⟩ (2 ^ 64 - 1)
        ⟨ascii "_", by decide⟩ cuts parts := by
  have refused (rounds : Nat) : splitExpecting (fun _ => true) rounds
      ⟨ascii "11_22", by decide⟩ (2 ^ 64 - 1) ⟨ascii "_", by decide⟩ = .error .lengthError :=
    splitExpecting_of_not_reserve (by decide) rounds _ _
  refine ⟨refused, by decide +kernel, ?_⟩
  rintro ⟨cuts, parts, agree⟩
  obtain ⟨enough, run⟩ := agree.split
  have returned := (refused enough).symm.trans (run enough (Nat.le_refl _))
  cases returned

/-- Every round of the search loop that goes on has advanced `prev`. -/
def Advances (part : Nat → Nat → Except Fault Bytes) (str delimiter : Bytes) : Prop :=
  ∀ state next, Reached (searchRound part str delimiter) { prev := 0, parts := [] } state →
    searchRound part str delimiter state = .ok (.yield next) → state.prev < next.prev

structure SearchesTerminate (allocates : Nat → Bool) (str : StdString) (partsExpected : Nat)
    (delimiter : StdString) : Prop where
  split : Terminates Fault.unfinished fun rounds =>
    splitExpecting allocates rounds str partsExpected delimiter
  splitTo : ∀ old, Terminates Fault.unfinished fun rounds => splitTo rounds str old delimiter
  splitAdvances : Advances (substr str.bytes) str.bytes delimiter.bytes
  splitToAdvances : Advances (stringView str.bytes) str.bytes delimiter.bytes

theorem advances_of_nonempty {part : Nat → Nat → Except Fault Bytes} {str delimiter : Bytes}
    (makes : MakesSlices part str) (bound : str.length < 2 ^ 63) (nonempty : delimiter ≠ []) :
    Advances part str delimiter := by
  intro state next _ goesOn
  have positive : 0 < delimiter.length := List.length_pos_iff.mpr nonempty
  rcases none_or_firstFrom (OccursAt delimiter str) state.prev with absent | ⟨first, found⟩
  · rw [searchRound_absent absent] at goesOn
    cases goesOn
  · rw [searchRound_found makes bound found (found.here.end_le nonempty)] at goesOn
    cases goesOn
    have le := found.le
    exact Nat.lt_of_le_of_lt le (Nat.lt_add_of_pos_right positive)

theorem splitTo_of_empty (rounds : Nat) (str : StdString) (old : List Bytes)
    {delimiter : StdString} (empty : delimiter.bytes = []) :
    splitTo rounds str old delimiter = .error .unfinished := by
  rw [splitTo, empty]
  exact searchParts_empty (makesSlices_stringView _) str.length_lt rounds

/-- The functions terminate, each round advancing the search, exactly for the
delimiters that are not empty. -/
theorem searchesTerminate_iff (allocates : Nat → Bool) (str : StdString) (partsExpected : Nat)
    (delimiter : StdString) :
    SearchesTerminate allocates str partsExpected delimiter ↔ delimiter.bytes ≠ [] := by
  constructor
  · intro terminate empty
    obtain ⟨rounds, finished⟩ := terminate.splitTo []
    exact finished (splitTo_of_empty rounds str [] empty)
  · intro nonempty
    obtain ⟨cuts, leftmost⟩ := exists_leftmostCuts nonempty str.bytes 0
    exact
      { split := by
          cases reserved : reserve allocates partsExpected with
          | ok => exact (splitExpecting_returns nonempty reserved leftmost).terminates _
          | error fault =>
              refine ⟨0, fun unfinished => ?_⟩
              have refused := splitExpecting_of_not_reserve reserved 0 str delimiter
              cases refused.symm.trans unfinished
              exact reserve_ne_unfinished reserved
        splitTo := fun old => (splitTo_returns nonempty old leftmost).terminates _
        splitAdvances := advances_of_nonempty (makesSlices_substr _) str.length_lt nonempty
        splitToAdvances :=
          advances_of_nonempty (makesSlices_stringView _) str.length_lt nonempty }

/-- With an empty delimiter both loops go on for ever. -/
theorem empty_delimiter_unfinished :
    (∀ rounds, splitExpecting (fun _ => true) rounds ⟨ascii "abc", by decide⟩ 10
        ⟨[], by decide⟩ = .error .unfinished) ∧
      (∀ rounds, splitTo rounds ⟨ascii "abc", by decide⟩ [] ⟨[], by decide⟩ =
        .error .unfinished) ∧
      ¬ SearchesTerminate (fun _ => true) ⟨ascii "abc", by decide⟩ 10 ⟨[], by decide⟩ := by
  have unfinished (rounds : Nat) : splitExpecting (fun _ => true) rounds ⟨ascii "abc", by decide⟩
      10 ⟨[], by decide⟩ = .error .unfinished := by
    rw [splitExpecting_of_reserve (by decide)]
    exact searchParts_empty (makesSlices_substr _) (by decide) rounds
  refine ⟨unfinished, fun rounds => splitTo_of_empty rounds _ [] rfl, ?_⟩
  intro terminate
  obtain ⟨rounds, finished⟩ := terminate.split
  exact finished (unfinished rounds)

end StringUtilities

end ExchangeConnectivity
