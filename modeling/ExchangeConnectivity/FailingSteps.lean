import Mathlib.Data.List.Basic
import Mathlib.Tactic.Common

/-!
# Computations that report their first failing step

A computation makes a list of steps in order.  It is meant to return the error
of the first step that fails, or a value when all succeed; the exceptions it
lets out instead are the outer failures of its result.
-/

namespace FailingSteps

variable {Step Error Value Exception : Type*}

/-- The step fails, and those before it in the list succeed. -/
def FirstFailing (Succeeds : Step → Prop) (steps : List Step) (step : Step) : Prop :=
  ∃ earlier later, steps = earlier ++ step :: later ∧
    (∀ other ∈ earlier, Succeeds other) ∧ ¬ Succeeds step

/-- The result is a suitable value if all steps succeed, and the error of the
first failing step otherwise. -/
def Reports (Succeeds : Step → Prop) (error : Step → Error) (Suitable : Value → Prop)
    (steps : List Step) (result : Except Exception (Except Error Value)) : Prop :=
  (∃ value, result = .ok (.ok value) ∧ (∀ step ∈ steps, Succeeds step) ∧ Suitable value) ∨
    ∃ step, FirstFailing Succeeds steps step ∧ result = .ok (.error (error step))

variable {Succeeds : Step → Prop} {error : Step → Error} {Suitable : Value → Prop}
variable {step : Step} {steps : List Step} {result : Except Exception (Except Error Value)}

theorem not_firstFailing_nil : ¬ FirstFailing Succeeds [] step := by
  rintro ⟨earlier, later, split, -⟩
  exact List.append_ne_nil_of_right_ne_nil earlier (List.cons_ne_nil step later) split.symm

theorem firstFailing_cons_of_succeeds {first : Step} (succeeds : Succeeds first) :
    FirstFailing Succeeds (first :: steps) step ↔ FirstFailing Succeeds steps step := by
  constructor
  · rintro ⟨earlier, later, split, before, fails⟩
    cases earlier with
    | nil =>
        cases split
        exact absurd succeeds fails
    | cons other earlier =>
        cases split
        exact ⟨earlier, later, rfl, fun other member => before other (.tail _ member), fails⟩
  · rintro ⟨earlier, later, rfl, before, fails⟩
    exact ⟨first :: earlier, later, rfl, List.forall_mem_cons.mpr ⟨succeeds, before⟩, fails⟩

theorem firstFailing_cons_of_fails {first : Step} (fails : ¬ Succeeds first) :
    FirstFailing Succeeds (first :: steps) step ↔ step = first := by
  constructor
  · rintro ⟨earlier, later, split, before, -⟩
    cases earlier with
    | nil =>
        cases split
        rfl
    | cons other earlier =>
        cases split
        exact absurd (before _ (.head _)) fails
  · rintro rfl
    exact ⟨[], steps, rfl, List.forall_mem_nil _, fails⟩

theorem reports_nil :
    Reports Succeeds error Suitable [] result ↔
      ∃ value, result = .ok (.ok value) ∧ Suitable value := by
  constructor
  · rintro (⟨value, returned, -, suitable⟩ | ⟨step, first, -⟩)
    · exact ⟨value, returned, suitable⟩
    · exact absurd first not_firstFailing_nil
  · rintro ⟨value, returned, suitable⟩
    exact .inl ⟨value, returned, List.forall_mem_nil _, suitable⟩

theorem reports_cons_of_succeeds (succeeds : Succeeds step) :
    Reports Succeeds error Suitable (step :: steps) result ↔
      Reports Succeeds error Suitable steps result := by
  simp only [Reports, List.forall_mem_cons, succeeds, true_and,
    firstFailing_cons_of_succeeds succeeds]

theorem reports_cons_of_fails (fails : ¬ Succeeds step) :
    Reports Succeeds error Suitable (step :: steps) result ↔
      result = .ok (.error (error step)) := by
  simp only [Reports, List.forall_mem_cons, fails, false_and, and_false, exists_false,
    false_or, firstFailing_cons_of_fails fails, exists_eq_left]

theorem not_reports_exception (exception : Exception) :
    ¬ Reports Succeeds error Suitable steps (.error exception) := by
  rintro (⟨value, returned, -⟩ | ⟨step, -, returned⟩) <;> cases returned

/-- If a result reports the failure of a step exactly when the step is checked,
and what follows the step does so for the steps left, it does so for all. -/
theorem reports_iff_cons {Checked : Step → Prop}
    (failed : ¬ Succeeds step → (result = .ok (.error (error step)) ↔ Checked step))
    (succeeded : Succeeds step →
      (Reports Succeeds error Suitable steps result ↔
        ∀ failing, FirstFailing Succeeds steps failing → Checked failing)) :
    Reports Succeeds error Suitable (step :: steps) result ↔
      ∀ failing, FirstFailing Succeeds (step :: steps) failing → Checked failing := by
  by_cases succeeds : Succeeds step
  · simp only [reports_cons_of_succeeds succeeds, succeeded succeeds,
      firstFailing_cons_of_succeeds succeeds]
  · simp only [reports_cons_of_fails succeeds, failed succeeds,
      firstFailing_cons_of_fails succeeds, forall_eq]

end FailingSteps
