import Mathlib.Data.List.DropRight
import Mathlib.Tactic.Common

/-!
# Trimmed lists and scanning loops

A list with a symbol to keep is cut into symbols to drop, a middle that
begins and ends with symbols to keep, and symbols to drop again; its trimmed
form is the middle.  A scanning loop moves an index while a test holds, and
the test may fail.
-/

namespace Trimming

section Lists

variable {Symbol : Type*} (dropped : Symbol → Bool)

/-- The list without the dropped symbols at its two ends. -/
def trimmed (symbols : List Symbol) : List Symbol :=
  (symbols.dropWhile dropped).rdropWhile dropped

/-- The cut of a list at its first and last symbols to keep. -/
structure Cut (symbols before middle after : List Symbol) : Prop where
  parts : symbols = before ++ middle ++ after
  nonempty : middle ≠ []
  before_dropped : ∀ symbol ∈ before, dropped symbol = true
  after_dropped : ∀ symbol ∈ after, dropped symbol = true
  first_kept : dropped (middle.head nonempty) = false
  last_kept : dropped (middle.getLast nonempty) = false

variable {dropped} {symbols before middle after : List Symbol}

theorem trimmed_of_all (all : ∀ symbol ∈ symbols, dropped symbol = true) :
    trimmed dropped symbols = [] := by
  have nothing : symbols.dropWhile dropped = [] := List.dropWhile_eq_nil_iff.mpr all
  rw [trimmed, nothing, List.rdropWhile_nil]

theorem exists_cut (kept : ∃ symbol ∈ symbols, dropped symbol = false) :
    ∃ before middle after, Cut dropped symbols before middle after := by
  obtain ⟨symbol, member, keptSymbol⟩ := kept
  have rest : symbols.dropWhile dropped ≠ [] := by
    intro nothing
    rw [List.dropWhile_eq_nil_iff.mp nothing symbol member] at keptSymbol
    cases keptSymbol
  have headKept := List.head_dropWhile_not dropped rest
  have nonempty : (symbols.dropWhile dropped).rdropWhile dropped ≠ [] := by
    intro nothing
    rw [List.rdropWhile_eq_nil_iff.mp nothing _ (List.head_mem rest)] at headKept
    cases headKept
  refine ⟨symbols.takeWhile dropped, (symbols.dropWhile dropped).rdropWhile dropped,
    (symbols.dropWhile dropped).rtakeWhile dropped, ?_⟩
  exact
    { parts := by
        rw [List.append_assoc, List.rdropWhile_append_rtakeWhile,
          List.takeWhile_append_dropWhile]
      nonempty
      before_dropped := fun _ inside => List.mem_takeWhile_imp inside
      after_dropped := fun _ inside => List.mem_rtakeWhile_imp inside
      first_kept := by
        rw [(List.rdropWhile_prefix dropped _).head nonempty]
        exact headKept
      last_kept := by
        simpa using List.rdropWhile_last_not dropped _ nonempty }

namespace Cut

theorem middle_length_pos (cut : Cut dropped symbols before middle after) :
    0 < middle.length :=
  List.length_pos_iff.mpr cut.nonempty

theorem length_eq (cut : Cut dropped symbols before middle after) :
    symbols.length = before.length + middle.length + after.length := by
  rw [cut.parts, List.length_append, List.length_append]

/-- Trimming leaves the middle. -/
theorem trimmed_eq (cut : Cut dropped symbols before middle after) :
    trimmed dropped symbols = middle := by
  obtain ⟨rfl, nonempty, beforeDropped, afterDropped, firstKept, lastKept⟩ := cut
  have front : (before ++ middle ++ after).dropWhile dropped = middle ++ after := by
    rw [List.append_assoc, List.dropWhile_append_of_pos beforeDropped]
    cases middle with
    | nil => exact absurd rfl nonempty
    | cons first middle => exact List.dropWhile_cons_of_neg (by simpa using firstKept)
  have back : (middle ++ after).rdropWhile dropped = middle := by
    have reversed : ∀ symbol ∈ after.reverse, dropped symbol = true :=
      fun symbol inside => afterDropped symbol (List.mem_reverse.mp inside)
    rw [List.rdropWhile, List.reverse_append, List.dropWhile_append_of_pos reversed]
    exact List.rdropWhile_eq_self_iff.mpr fun _ => by simp [lastKept]
  rw [trimmed, front, back]

/-- The first symbol to keep is the first of the middle. -/
theorem find?_eq (cut : Cut dropped symbols before middle after) :
    symbols.find? (fun symbol => !dropped symbol) = some (middle.head cut.nonempty) := by
  have none : before.find? (fun symbol => !dropped symbol) = none :=
    List.find?_eq_none.mpr fun symbol inside => by simp [cut.before_dropped symbol inside]
  have firstKept := cut.first_kept
  generalize cut.nonempty = nonempty at firstKept ⊢
  rw [cut.parts, List.append_assoc, List.find?_append, none, Option.none_or]
  cases middle with
  | nil => exact absurd rfl nonempty
  | cons first middle => exact List.find?_cons_of_pos (by simpa using firstKept)

/-- The reversed list is cut at the same symbols. -/
theorem reverse (cut : Cut dropped symbols before middle after) :
    Cut dropped symbols.reverse after.reverse middle.reverse before.reverse where
  parts := by rw [cut.parts, List.reverse_append, List.reverse_append, List.append_assoc]
  nonempty := by simpa using cut.nonempty
  before_dropped := fun symbol inside =>
    cut.after_dropped symbol (List.mem_reverse.mp inside)
  after_dropped := fun symbol inside =>
    cut.before_dropped symbol (List.mem_reverse.mp inside)
  first_kept := by simpa using cut.last_kept
  last_kept := by simpa using cut.first_kept

theorem find?_reverse_eq (cut : Cut dropped symbols before middle after) :
    symbols.reverse.find? (fun symbol => !dropped symbol) =
      some (middle.getLast cut.nonempty) := by
  rw [cut.reverse.find?_eq, List.head_reverse]

theorem getElem?_before (cut : Cut dropped symbols before middle after) {index : Nat}
    (bound : index < before.length) :
    ∃ symbol, symbols[index]? = some symbol ∧ dropped symbol = true := by
  refine ⟨before[index], ?_, cut.before_dropped _ (List.getElem_mem bound)⟩
  rw [cut.parts, List.append_assoc, List.getElem?_append_left bound,
    List.getElem?_eq_getElem bound]

theorem getElem?_first (cut : Cut dropped symbols before middle after) :
    symbols[before.length]? = some (middle.head cut.nonempty) := by
  have positive := cut.middle_length_pos
  generalize cut.nonempty = nonempty
  rw [cut.parts, List.append_assoc, List.getElem?_append_right (Nat.le_refl _),
    Nat.sub_self, List.getElem?_append_left positive,
    ← List.head?_eq_getElem?, List.head?_eq_some_head]

theorem getElem?_last (cut : Cut dropped symbols before middle after) :
    symbols[before.length + middle.length - 1]? = some (middle.getLast cut.nonempty) := by
  have positive := cut.middle_length_pos
  generalize cut.nonempty = nonempty
  rw [cut.parts, List.append_assoc, List.getElem?_append_right (by omega),
    List.getElem?_append_left (by omega), List.getLast_eq_getElem,
    List.getElem?_eq_getElem (by omega)]
  congr 2
  omega

theorem getElem?_after (cut : Cut dropped symbols before middle after) {index : Nat}
    (lower : before.length + middle.length ≤ index) (upper : index < symbols.length) :
    ∃ symbol, symbols[index]? = some symbol ∧ dropped symbol = true := by
  have length := cut.length_eq
  have bound : index - (before ++ middle).length < after.length := by
    rw [List.length_append]
    omega
  refine ⟨after[index - (before ++ middle).length], ?_,
    cut.after_dropped _ (List.getElem_mem bound)⟩
  rw [cut.parts, List.getElem?_append_right (by rw [List.length_append]; omega),
    List.getElem?_eq_getElem bound]

/-- What follows the dropped front begins with the middle. -/
theorem tail (cut : Cut dropped symbols before middle after) :
    Cut dropped (middle ++ after) [] middle after :=
  { cut with
    parts := rfl
    before_dropped := fun _ inside => absurd inside List.not_mem_nil }

/-- A list keeps its cut when it loses symbols that are dropped anyway. -/
theorem filter (cut : Cut dropped symbols before middle after) {keep : Symbol → Bool}
    (keeps : ∀ symbol, dropped symbol = false → keep symbol = true) :
    Cut dropped (symbols.filter keep) (before.filter keep) (middle.filter keep)
      (after.filter keep) where
  parts := by rw [cut.parts, List.filter_append, List.filter_append]
  nonempty := List.ne_nil_of_mem
    (List.mem_filter.mpr ⟨List.head_mem cut.nonempty, keeps _ cut.first_kept⟩)
  before_dropped := fun symbol inside => cut.before_dropped symbol (List.mem_of_mem_filter inside)
  after_dropped := fun symbol inside => cut.after_dropped symbol (List.mem_of_mem_filter inside)
  first_kept := by
    rw [List.head_filter_of_pos cut.nonempty (keeps _ cut.first_kept)]
    exact cut.first_kept
  last_kept := by
    rw [List.getLast_filter_of_pos cut.nonempty (keeps _ cut.last_kept)]
    exact cut.last_kept

/-- The middle as the slice between its first and its last position. -/
theorem slice_eq (cut : Cut dropped symbols before middle after) :
    (symbols.drop before.length).take middle.length = middle := by
  rw [cut.parts, List.append_assoc, List.drop_left, List.take_left]

end Cut

end Lists

section Scans

variable {Failure : Type} {unfinished : Failure}

/-- `while (continues(index)) index = next(index)`, given up after a number
of rounds. -/
def scan (unfinished : Failure) (continues : Nat → Except Failure Bool) (next : Nat → Nat) :
    Nat → Nat → Except Failure Nat
  | 0, _ => .error unfinished
  | rounds + 1, index => do
      if ← continues index then scan unfinished continues next rounds (next index)
      else .ok index

variable {continues : Nat → Except Failure Bool} {next : Nat → Nat}

theorem scan_stop {index : Nat} (stops : continues index = .ok false) (rounds : Nat) :
    scan unfinished continues next (rounds + 1) index = .ok index := by
  rw [scan, stops]
  rfl

theorem scan_step {index : Nat} (goesOn : continues index = .ok true) (rounds : Nat) :
    scan unfinished continues next (rounds + 1) index =
      scan unfinished continues next rounds (next index) := by
  rw [scan, goesOn]
  rfl

theorem scan_error {index : Nat} {failure : Failure}
    (fails : continues index = .error failure) (rounds : Nat) :
    scan unfinished continues next (rounds + 1) index = .error failure := by
  rw [scan, fails]
  rfl

/-- A loop that counts up goes on as at the first index where its test does
not hold. -/
theorem scan_up {start stop : Nat} (le : start ≤ stop)
    (goesOn : ∀ index, start ≤ index → index < stop →
      continues index = .ok true ∧ next index = index + 1) (rounds : Nat) :
    scan unfinished continues next (stop - start + rounds) start =
      scan unfinished continues next rounds stop := by
  induction le using Nat.decreasingInduction with
  | self => rw [Nat.sub_self, Nat.zero_add]
  | of_succ start bound ih =>
      obtain ⟨here, nextEq⟩ := goesOn start (Nat.le_refl _) bound
      have split : stop - start + rounds = stop - (start + 1) + rounds + 1 := by omega
      rw [split, scan_step here, nextEq]
      exact ih fun index lower upper => goesOn index (by omega) upper

/-- A loop that counts down goes on as at the last index where its test does
not hold. -/
theorem scan_down {stop start : Nat} (le : stop ≤ start)
    (goesOn : ∀ index, stop < index → index ≤ start →
      continues index = .ok true ∧ next index = index - 1) (rounds : Nat) :
    scan unfinished continues next (start - stop + rounds) start =
      scan unfinished continues next rounds stop := by
  induction start, le using Nat.le_induction with
  | base => rw [Nat.sub_self, Nat.zero_add]
  | succ start le ih =>
      obtain ⟨here, nextEq⟩ := goesOn (start + 1) (by omega) (Nat.le_refl _)
      have split : start + 1 - stop + rounds = start - stop + rounds + 1 := by omega
      rw [split, scan_step here, nextEq, Nat.add_sub_cancel]
      exact ih fun index lower upper => goesOn index lower (by omega)

end Scans

end Trimming
