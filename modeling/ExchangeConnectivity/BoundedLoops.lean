import ExchangeConnectivity.FailingComputations
import Mathlib.Logic.Relation

/-!
# Loops given up after a number of rounds

A round of a loop yields the next state, ends the loop in a final state, or
fails.  A loop returns a value when it does so for every number of rounds from
some number on; it terminates when some number of rounds is enough for it to
end, in whatever way.
-/

namespace BoundedLoops

open FailingComputations Relation

variable {Failure State Value Item : Type}

def loop (unfinished : Failure) (round : State → Except Failure (ForInStep State)) :
    Nat → State → Except Failure State
  | 0, _ => .error unfinished
  | rounds + 1, state => do
      match ← round state with
      | .yield next => loop unfinished round rounds next
      | .done final => .ok final

/-- From some number of rounds on, the computation yields the value. -/
def Returns (computation : Nat → Except Failure Value) (value : Value) : Prop :=
  ∃ enough, ∀ rounds, enough ≤ rounds → computation rounds = .ok value

/-- Some number of rounds is enough for the computation to end. -/
def Terminates (unfinished : Failure) (computation : Nat → Except Failure Value) : Prop :=
  ∃ rounds, computation rounds ≠ .error unfinished

theorem Returns.terminates {computation : Nat → Except Failure Value} {value : Value}
    (returns : Returns computation value) (unfinished : Failure) :
    Terminates unfinished computation := by
  obtain ⟨enough, run⟩ := returns
  refine ⟨enough, ?_⟩
  rw [run enough (Nat.le_refl _)]
  exact nofun

/-- The loop goes on from one state with the other. -/
def Continues (round : State → Except Failure (ForInStep State)) (state next : State) : Prop :=
  round state = .ok (.yield next)

/-- The states in which rounds of the loop begin. -/
def Reached (round : State → Except Failure (ForInStep State)) (start : State) : State → Prop :=
  ReflTransGen (Continues round) start

variable {unfinished : Failure} {round : State → Except Failure (ForInStep State)}
  {start state next final : State}

theorem loop_yield (goesOn : round state = .ok (.yield next)) (rounds : Nat) :
    loop unfinished round (rounds + 1) state = loop unfinished round rounds next := by
  rw [loop, goesOn]
  rfl

theorem loop_done (stops : round state = .ok (.done final)) (rounds : Nat) :
    loop unfinished round (rounds + 1) state = .ok final := by
  rw [loop, stops]
  rfl

/-- A loop whose rounds all go on is given up, however many there are. -/
theorem loop_unfinished {holds : State → Prop}
    (goesOn : ∀ state, holds state → ∃ next, round state = .ok (.yield next) ∧ holds next)
    (initial : holds start) (rounds : Nat) :
    loop unfinished round rounds start = .error unfinished := by
  induction rounds generalizing start with
  | zero => rfl
  | succ rounds ih =>
      obtain ⟨next, yields, kept⟩ := goesOn start initial
      rw [loop_yield yields]
      exact ih kept

/-- The rule of total correctness: every round keeps the invariant and makes
the measure smaller, or ends the loop with the postcondition. -/
theorem loop_rule {holds post : State → Prop} {measure : State → Nat}
    (round_cases : ∀ state, holds state →
      (∃ next, round state = .ok (.yield next) ∧ holds next ∧ measure next < measure state) ∨
        ∃ final, round state = .ok (.done final) ∧ post final)
    (initial : holds start) {rounds : Nat} (enough : measure start < rounds) :
    ∃ final, loop unfinished round rounds start = .ok final ∧ post final := by
  induction rounds generalizing start with
  | zero => exact absurd enough (Nat.not_lt_zero _)
  | succ rounds ih =>
      rcases round_cases start initial with ⟨next, yields, kept, smaller⟩ | ⟨final, ends, holds⟩
      · rw [loop_yield yields]
        exact ih kept (by omega)
      · exact ⟨final, loop_done ends rounds, holds⟩

/-- A loop over a list, with what has been passed in the invariant. -/
theorem foldlM_rule {body : State → Item → Except Failure State}
    {holds : List Item → State → Prop} {items : List Item}
    (keeps : ∀ before item after, items = before ++ item :: after → ∀ state,
      holds before state → ∃ next, body state item = .ok next ∧ holds (before ++ [item]) next)
    (initial : holds [] start) :
    ∃ final, items.foldlM body start = .ok final ∧ holds items final := by
  have rest (passed left : List Item) (split : items = passed ++ left) (state : State)
      (kept : holds passed state) :
      ∃ final, left.foldlM body state = .ok final ∧ holds items final := by
    induction left generalizing passed state with
    | nil =>
        rw [List.append_nil] at split
        exact ⟨state, rfl, split ▸ kept⟩
    | cons item left ih =>
        obtain ⟨next, run, keptNext⟩ := keeps passed item left split state kept
        rw [List.foldlM_cons, run, ok_bind]
        exact ih (passed ++ [item]) (by rw [split, List.append_assoc]; rfl) next keptNext
  exact rest [] items rfl start initial

/-- A loop over the numbers below a bound, with the number reached in the
invariant. -/
theorem foldlM_range_rule {body : State → Nat → Except Failure State}
    {holds : Nat → State → Prop} {bound : Nat}
    (keeps : ∀ index, index < bound → ∀ state, holds index state →
      ∃ next, body state index = .ok next ∧ holds (index + 1) next)
    (initial : holds 0 start) :
    ∃ final, (List.range bound).foldlM body start = .ok final ∧ holds bound final := by
  induction bound with
  | zero => exact ⟨start, rfl, initial⟩
  | succ bound ih =>
      obtain ⟨state, run, kept⟩ := ih fun index below => keeps index (Nat.lt_succ_of_lt below)
      obtain ⟨next, runNext, keptNext⟩ := keeps bound (Nat.lt_succ_self _) state kept
      refine ⟨next, ?_, keptNext⟩
      rw [List.range_succ, List.foldlM_append, run, ok_bind, List.foldlM_cons, runNext, ok_bind,
        List.foldlM_nil]
      rfl

end BoundedLoops
