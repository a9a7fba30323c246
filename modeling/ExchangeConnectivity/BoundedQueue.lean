import Mathlib.Data.List.Infix

/-!
# Bounded queues

The operations of a bounded first-in first-out queue with the results they
report, as a relation on its contents, and the sequences of operations that a
queue can go through.
-/

namespace BoundedQueue

variable {Item : Type*}

/-- An operation with its result: an item was added, or refused because the
queue was full; an item was removed, or missed because the queue was empty. -/
inductive Operation (Item : Type*)
  | push (item : Item)
  | refuse (item : Item)
  | pop (item : Item)
  | miss

/-- The operation takes the queue from one contents to another. -/
inductive Step (capacity : Nat) : List Item → Operation Item → List Item → Prop
  | push {items : List Item} {item : Item} (room : items.length < capacity) :
      Step capacity items (.push item) (items ++ [item])
  | refuse {items : List Item} {item : Item} (full : items.length = capacity) :
      Step capacity items (.refuse item) items
  | pop {item : Item} {items : List Item} : Step capacity (item :: items) (.pop item) items
  | miss : Step capacity [] .miss []

/-- The operations take an empty queue to these contents, in their order. -/
inductive Run (capacity : Nat) : List (Operation Item) → List Item → Prop
  | nil : Run capacity [] []
  | snoc {operations : List (Operation Item)} {items next : List Item}
      {operation : Operation Item} (run : Run capacity operations items)
      (step : Step capacity items operation next) :
      Run capacity (operations ++ [operation]) next

def Operation.pushed : Operation Item → Option Item
  | .push item => some item
  | _ => none

def Operation.popped : Operation Item → Option Item
  | .pop item => some item
  | _ => none

/-- The items added, in order. -/
def pushed (operations : List (Operation Item)) : List Item :=
  operations.filterMap Operation.pushed

/-- The items removed, in order. -/
def popped (operations : List (Operation Item)) : List Item :=
  operations.filterMap Operation.popped

section Logs

variable (first second : List (Operation Item)) (item : Item)

@[simp]
theorem pushed_append : pushed (first ++ second) = pushed first ++ pushed second :=
  List.filterMap_append

@[simp]
theorem popped_append : popped (first ++ second) = popped first ++ popped second :=
  List.filterMap_append

@[simp]
theorem pushed_push : pushed [.push item] = [item] :=
  rfl

@[simp]
theorem pushed_refuse : pushed [.refuse item] = [] :=
  rfl

@[simp]
theorem pushed_pop : pushed [.pop item] = [] :=
  rfl

@[simp]
theorem pushed_miss : pushed [.miss] = ([] : List Item) :=
  rfl

@[simp]
theorem popped_push : popped [.push item] = [] :=
  rfl

@[simp]
theorem popped_refuse : popped [.refuse item] = [] :=
  rfl

@[simp]
theorem popped_pop : popped [.pop item] = [item] :=
  rfl

@[simp]
theorem popped_miss : popped [.miss] = ([] : List Item) :=
  rfl

end Logs

variable {capacity : Nat} {operations : List (Operation Item)} {items : List Item}

section Steps

variable {item : Item} {next : List Item}

theorem Step.push_eq (step : Step capacity items (.push item) next) : next = items ++ [item] := by
  cases step
  rfl

theorem Step.refuse_full (step : Step capacity items (.refuse item) next) :
    items.length = capacity := by
  cases step
  assumption

theorem Step.pop_eq (step : Step capacity items (.pop item) next) : items = item :: next := by
  cases step
  rfl

theorem Step.miss_eq (step : Step capacity items .miss next) : items = [] ∧ next = [] := by
  cases step
  exact ⟨rfl, rfl⟩

end Steps

/-- What was added is what was removed and what is left. -/
theorem Run.pushed_eq (run : Run capacity operations items) :
    pushed operations = popped operations ++ items := by
  induction run with
  | nil => rfl
  | snoc run step ih =>
      rw [pushed_append, popped_append, ih]
      cases step <;> simp

/-- The operations determine the contents. -/
theorem Run.unique {others : List Item} (first : Run capacity operations items)
    (second : Run capacity operations others) : items = others := by
  have same := first.pushed_eq.symm.trans second.pushed_eq
  exact List.append_cancel_left same

/-- The last operation of a run takes the contents before it to those after. -/
theorem Run.last {operation : Operation Item} {next : List Item}
    (before : Run capacity operations items)
    (after : Run capacity (operations ++ [operation]) next) :
    Step capacity items operation next := by
  generalize extended : operations ++ [operation] = all at after
  cases after with
  | nil => exact absurd extended (List.append_ne_nil_of_right_ne_nil _ (List.cons_ne_nil _ _))
  | snoc run step =>
      obtain ⟨rfl, last⟩ := List.append_inj' extended rfl
      cases last
      rw [before.unique run]
      exact step

theorem Run.popped_prefix (run : Run capacity operations items) :
    popped operations <+: pushed operations :=
  ⟨items, run.pushed_eq.symm⟩

theorem Run.length_le (run : Run capacity operations items) : items.length ≤ capacity := by
  induction run with
  | nil => exact Nat.zero_le _
  | snoc run step ih =>
      cases step with
      | push room =>
          rw [List.length_append, List.length_singleton]
          exact room
      | refuse full => exact Nat.le_of_eq full
      | pop => exact Nat.le_of_succ_le ih
      | miss => exact Nat.zero_le _

end BoundedQueue
