import Mathlib.Data.List.Forall2
import Mathlib.Tactic.Common

/-!
# Reasoning about computations that may fail

Inversion of sequenced computations and loops in `Except`, and a calculus for
the absence of one particular failure: a computation avoids a failure with a
postcondition when it never ends in that failure and every value it yields
satisfies the postcondition.
-/

namespace FailingComputations

variable {Failure Value Result Item : Type}

@[simp]
theorem ok_bind (value : Value) (next : Value → Except Failure Result) :
    ((Except.ok value : Except Failure Value) >>= next) = next value :=
  rfl

@[simp]
theorem error_bind (failure : Failure) (next : Value → Except Failure Result) :
    ((Except.error failure : Except Failure Value) >>= next) =
      Except.error failure :=
  rfl

theorem bind_eq_ok_iff {first : Except Failure Value}
    {next : Value → Except Failure Result} {result : Result} :
    (first >>= next) = .ok result ↔
      ∃ value, first = .ok value ∧ next value = .ok result := by
  cases first <;> simp

/-- A successful loop over a list is a successful call for every item. -/
theorem mapM_eq_ok_iff {body : Item → Except Failure Result} {items : List Item}
    {results : List Result} :
    items.mapM body = .ok results ↔
      List.Forall₂ (fun item result => body item = .ok result) items results := by
  induction items generalizing results with
  | nil =>
      rw [List.mapM_nil, List.forall₂_nil_left_iff]
      exact ⟨fun equal => (Except.ok.inj equal).symm, fun equal => by rw [equal]; rfl⟩
  | cons item items ih =>
      simp only [List.mapM_cons, bind_eq_ok_iff, List.forall₂_cons_left_iff]
      constructor
      · rintro ⟨head, headEq, tail, tailEq, equal⟩
        cases equal
        exact ⟨head, tail, headEq, ih.mp tailEq, rfl⟩
      · rintro ⟨head, tail, headEq, tailEq, rfl⟩
        exact ⟨head, headEq, tail, ih.mpr tailEq, rfl⟩

/-- A loop that yields a value keeps what each of its rounds keeps. -/
theorem foldlM_ok_induction {invariant : Value → Prop}
    {body : Value → Item → Except Failure Value} {items : List Item} {start final : Value}
    (run : items.foldlM body start = .ok final) (holds : invariant start)
    (keeps : ∀ item ∈ items, ∀ value next, invariant value → body value item = .ok next →
      invariant next) : invariant final := by
  induction items generalizing start with
  | nil =>
      rw [List.foldlM_nil] at run
      cases run
      exact holds
  | cons item items ih =>
      rw [List.foldlM_cons, bind_eq_ok_iff] at run
      obtain ⟨next, first, others⟩ := run
      have kept := keeps item List.mem_cons_self start next holds first
      exact ih others kept fun later member => keeps later (List.mem_cons_of_mem _ member)

/-- The computation yields a value. -/
def Succeeds (computation : Except Failure Value) : Prop :=
  ∃ value, computation = .ok value

theorem succeeds_pure (value : Value) : Succeeds (Pure.pure value : Except Failure Value) :=
  ⟨value, rfl⟩

theorem succeeds_bind_iff {later : Prop} {first : Except Failure Value}
    {next : Value → Except Failure Result}
    (succeedsNext : ∀ value, first = .ok value → (Succeeds (next value) ↔ later)) :
    Succeeds (first >>= next) ↔ Succeeds first ∧ later := by
  unfold Succeeds at succeedsNext ⊢
  constructor
  · rintro ⟨result, run⟩
    obtain ⟨value, firstRun, nextRun⟩ := bind_eq_ok_iff.mp run
    exact ⟨⟨value, firstRun⟩, (succeedsNext value firstRun).mp ⟨result, nextRun⟩⟩
  · rintro ⟨⟨value, firstRun⟩, holds⟩
    obtain ⟨result, nextRun⟩ := (succeedsNext value firstRun).mpr holds
    exact ⟨result, bind_eq_ok_iff.mpr ⟨value, firstRun, nextRun⟩⟩

theorem succeeds_map_iff {first : Except Failure Value} {next : Value → Result} :
    Succeeds (first >>= fun value => Pure.pure (next value)) ↔ Succeeds first := by
  rw [succeeds_bind_iff (fun value _ => iff_true_intro (succeeds_pure (next value))), and_true]

/-- A loop succeeds when each of its rounds can. -/
theorem succeeds_foldlM_iff {kind : Item → Prop} {body : Value → Item → Except Failure Value}
    (round : ∀ value item, Succeeds (body value item) ↔ kind item) {items : List Item}
    {start : Value} : Succeeds (items.foldlM body start) ↔ ∀ item ∈ items, kind item := by
  induction items generalizing start with
  | nil => simp [succeeds_pure]
  | cons item items ih =>
      rw [List.foldlM_cons, succeeds_bind_iff fun _ _ => ih, round, List.forall_mem_cons]

/-- The computation yields the value when the condition holds, and no value
at all otherwise. -/
structure YieldsIf (condition : Prop) (value : Value)
    (computation : Except Failure Value) : Prop where
  yields : condition → computation = .ok value
  needed : (∃ result, computation = .ok result) → condition

theorem YieldsIf.pure (value : Value) :
    YieldsIf True value (Pure.pure value : Except Failure Value) :=
  ⟨fun _ => rfl, fun _ => trivial⟩

theorem YieldsIf.check {condition : Prop} [Decidable condition] (value : Value)
    (failure : Failure) :
    YieldsIf condition value (if condition then .ok value else .error failure) := by
  constructor
  · intro holds
    rw [if_pos holds]
  · rintro ⟨result, run⟩
    by_contra fails
    rw [if_neg fails] at run
    cases run

/-- The conditions of successive computations are conjoined. -/
theorem YieldsIf.bind {condition later : Prop} {value : Value} {result : Result}
    {first : Except Failure Value} {next : Value → Except Failure Result}
    (yieldsFirst : YieldsIf condition value first)
    (yieldsNext : YieldsIf later result (next value)) :
    YieldsIf (condition ∧ later) result (first >>= next) := by
  constructor
  · rintro ⟨holds, holdsLater⟩
    rw [yieldsFirst.yields holds, ok_bind, yieldsNext.yields holdsLater]
  · rintro ⟨final, run⟩
    obtain ⟨found, firstRun, nextRun⟩ := bind_eq_ok_iff.mp run
    have holds := yieldsFirst.needed ⟨found, firstRun⟩
    rw [yieldsFirst.yields holds] at firstRun
    cases firstRun
    exact ⟨holds, yieldsNext.needed ⟨final, nextRun⟩⟩

theorem YieldsIf.after {condition : Prop} {value : Value} {result : Result}
    {first : Except Failure Value} {next : Value → Except Failure Result}
    (equal : first = .ok value) (yieldsNext : YieldsIf condition result (next value)) :
    YieldsIf condition result (first >>= next) := by
  rw [equal, ok_bind]
  exact yieldsNext

theorem YieldsIf.congr {condition other : Prop} {value : Value}
    {computation : Except Failure Value}
    (yieldsIf : YieldsIf condition value computation) (equiv : condition ↔ other) :
    YieldsIf other value computation := by
  rw [← equiv]
  exact yieldsIf

/-- A property of the value decides with the condition whether the
computation yields a value of the property. -/
theorem YieldsIf.exists_iff {condition : Prop} {value : Value}
    {computation : Except Failure Value} {property : Value → Prop}
    (yieldsIf : YieldsIf condition value computation)
    (has : condition → property value) :
    (∃ result, computation = .ok result ∧ property result) ↔ condition := by
  constructor
  · rintro ⟨result, run, -⟩
    exact yieldsIf.needed ⟨result, run⟩
  · intro holds
    exact ⟨value, yieldsIf.yields holds, has holds⟩

/-- The computation does not end in `bad`, and a value it yields satisfies
the postcondition. -/
def Avoids (bad : Failure) (post : Value → Prop) : Except Failure Value → Prop
  | .ok value => post value
  | .error failure => failure ≠ bad

variable {bad : Failure}

theorem Avoids.ne_error {post : Value → Prop}
    {computation : Except Failure Value} (avoids : Avoids bad post computation) :
    computation ≠ .error bad := by
  rintro rfl
  exact avoids rfl

theorem Avoids.bind {post : Value → Prop} {final : Result → Prop}
    {first : Except Failure Value} {next : Value → Except Failure Result}
    (avoids : Avoids bad post first)
    (continues : ∀ value, post value → Avoids bad final (next value)) :
    Avoids bad final (first >>= next) := by
  cases first with
  | ok value => exact continues value avoids
  | error failure => exact avoids

/-- The loop rule: an invariant the body keeps holds after the loop. -/
theorem Avoids.foldlM {invariant : Value → Prop}
    {body : Value → Item → Except Failure Value}
    (keeps : ∀ value item, invariant value →
      Avoids bad invariant (body value item))
    (items : List Item) {start : Value} (holds : invariant start) :
    Avoids bad invariant (items.foldlM body start) := by
  induction items generalizing start with
  | nil => exact holds
  | cons item items ih =>
      rw [List.foldlM_cons]
      exact (keeps start item holds).bind fun value kept => ih kept

/-- A loop over a list avoids what its body avoids on every item. -/
theorem Avoids.mapM {body : Item → Except Failure Result}
    (avoids : ∀ item, Avoids bad (fun _ => True) (body item)) (items : List Item) :
    Avoids bad (fun _ => True) (items.mapM body) := by
  induction items with
  | nil =>
      rw [List.mapM_nil]
      trivial
  | cons item items ih =>
      rw [List.mapM_cons]
      exact (avoids item).bind fun _ _ => ih.bind fun _ _ => trivial

/-- The failures the computation may end in. -/
def FailsOnly (allowed : Failure → Prop) (computation : Except Failure Value) : Prop :=
  ∀ failure, computation = .error failure → allowed failure

variable {allowed : Failure → Prop}

theorem failsOnly_ok (allowed : Failure → Prop) (value : Value) :
    FailsOnly allowed (.ok value) := by
  intro failure failed
  cases failed

theorem failsOnly_error {failure : Failure} (isAllowed : allowed failure) :
    FailsOnly allowed (.error failure : Except Failure Value) := by
  intro other failed
  cases failed
  exact isAllowed

theorem FailsOnly.bind {first : Except Failure Value} {next : Value → Except Failure Result}
    (failsOnly : FailsOnly allowed first) (continues : ∀ value, FailsOnly allowed (next value)) :
    FailsOnly allowed (first >>= next) := by
  cases first with
  | ok value => exact continues value
  | error failure => exact failsOnly_error (failsOnly failure rfl)

theorem FailsOnly.mapM {body : Item → Except Failure Result}
    (failsOnly : ∀ item, FailsOnly allowed (body item)) (items : List Item) :
    FailsOnly allowed (items.mapM body) := by
  induction items with
  | nil =>
      rw [List.mapM_nil]
      exact failsOnly_ok allowed []
  | cons item items ih =>
      rw [List.mapM_cons]
      exact (failsOnly item).bind fun _ => ih.bind fun _ => failsOnly_ok allowed _

end FailingComputations
