import Mathlib.Data.List.TakeWhile
import Mathlib.Tactic.Common

/-!
# Readers of texts

A reader takes a value from the front of a text and leaves the rest of the
text, or fails.  Readers are combined in sequence and by trying one after
another.  This file gives rules for what a combined reader reads, and for the
symbols it can take.
-/

namespace TextReaders

abbrev Reader (Symbol : Type) :=
  StateT (List Symbol) Option

variable {Symbol Value Result : Type}

/-- Reads one symbol that passes a test. -/
def symbol (test : Symbol → Bool) : Reader Symbol Symbol
  | [] => none
  | next :: rest => if test next then some (next, rest) else none

/-- Reads as many symbols that pass a test as there are. -/
def many (test : Symbol → Bool) : Reader Symbol (List Symbol) :=
  fun text => some (text.takeWhile test, text.dropWhile test)

/-- Reads the given symbols. -/
def expect [DecidableEq Symbol] (expected : List Symbol) : Reader Symbol Unit :=
  fun text =>
    if expected.isPrefixOf text then some ((), text.drop expected.length) else none

/-- The value of a reader that takes all of the text. -/
def readAll (reader : Reader Symbol Value) (text : List Symbol) : Option Value :=
  match reader text with
  | some (value, []) => some value
  | _ => none

/-- The reader takes the value from the text and leaves the rest. -/
def Reads (reader : Reader Symbol Value) (text : List Symbol) (value : Value)
    (rest : List Symbol) : Prop :=
  reader text = some (value, rest)

theorem reads_pure (value : Value) (text : List Symbol) :
    Reads (Pure.pure value : Reader Symbol Value) text value text :=
  rfl

theorem reads_bind_iff {reader : Reader Symbol Value} {next : Value → Reader Symbol Result}
    {text rest : List Symbol} {result : Result} :
    Reads (reader >>= next) text result rest ↔
      ∃ value middle, Reads reader text value middle ∧ Reads (next value) middle result rest := by
  unfold Reads
  show ((reader text).bind fun pair => next pair.1 pair.2) = _ ↔ _
  rw [Option.bind_eq_some_iff]
  exact ⟨fun ⟨⟨value, middle⟩, first, second⟩ => ⟨value, middle, first, second⟩,
    fun ⟨value, middle, first, second⟩ => ⟨(value, middle), first, second⟩⟩

theorem Reads.bind {reader : Reader Symbol Value} {next : Value → Reader Symbol Result}
    {text middle rest : List Symbol} {value : Value} {result : Result}
    (first : Reads reader text value middle) (second : Reads (next value) middle result rest) :
    Reads (reader >>= next) text result rest :=
  reads_bind_iff.mpr ⟨value, middle, first, second⟩

theorem orElse_run (first second : Reader Symbol Value) (text : List Symbol) :
    (first <|> second) text = (first text <|> second text) :=
  rfl

theorem Reads.orElse {first : Reader Symbol Value} {text rest : List Symbol} {value : Value}
    (reads : Reads first text value rest) (second : Reader Symbol Value) :
    Reads (first <|> second) text value rest := by
  unfold Reads at reads ⊢
  rw [orElse_run, reads]
  rfl

theorem Reads.orElse_of_fails {first second : Reader Symbol Value} {text rest : List Symbol}
    {value : Value} (fails : first text = none) (reads : Reads second text value rest) :
    Reads (first <|> second) text value rest := by
  unfold Reads at reads ⊢
  rw [orElse_run, fails, reads]
  rfl

theorem reads_guard {condition : Prop} [Decidable condition] (holds : condition)
    (text : List Symbol) : Reads (guard condition : Reader Symbol Unit) text () text := by
  unfold guard
  rw [if_pos holds]
  rfl

theorem reads_symbol {test : Symbol → Bool} {next : Symbol} (passes : test next = true)
    (rest : List Symbol) : Reads (symbol test) (next :: rest) next rest := by
  simp [Reads, symbol, passes]

theorem reads_many {test : Symbol → Bool} {symbols rest : List Symbol}
    (pass : ∀ symbol ∈ symbols, test symbol = true)
    (stops : ∀ next ∈ rest.head?, test next = false) :
    Reads (many test) (symbols ++ rest) symbols rest := by
  have takenRest : rest.takeWhile test = [] ∧ rest.dropWhile test = rest := by
    cases rest with
    | nil => exact ⟨rfl, rfl⟩
    | cons next rest =>
        have fails := stops next rfl
        exact ⟨by simp [fails], by simp [fails]⟩
  unfold Reads many
  rw [List.takeWhile_append_of_pos pass, List.dropWhile_append_of_pos pass, takenRest.1,
    takenRest.2, List.append_nil]

theorem reads_expect [DecidableEq Symbol] (expected rest : List Symbol) :
    Reads (expect expected) (expected ++ rest) () rest := by
  have initial : expected.isPrefixOf (expected ++ rest) = true :=
    List.isPrefixOf_iff_prefix.mpr ⟨rest, rfl⟩
  unfold Reads expect
  rw [if_pos initial, List.drop_left]

theorem expect_fails [DecidableEq Symbol] {first next : Symbol} (different : first ≠ next)
    (expected rest : List Symbol) : expect (first :: expected) (next :: rest) = none := by
  have notInitial : ¬ (first :: expected).isPrefixOf (next :: rest) = true := by
    simp [List.isPrefixOf, different]
  unfold expect
  rw [if_neg notInitial]

theorem bind_fails {reader : Reader Symbol Value} (next : Value → Reader Symbol Result)
    {text : List Symbol} (fails : reader text = none) : (reader >>= next) text = none := by
  show ((reader text).bind fun pair => next pair.1 pair.2) = none
  rw [fails]
  rfl

theorem readAll_eq_some_iff {reader : Reader Symbol Value} {text : List Symbol} {value : Value} :
    readAll reader text = some value ↔ Reads reader text value [] := by
  unfold readAll Reads
  split
  · next found equal => simp [equal]
  · next other =>
      constructor
      · intro impossible
        cases impossible
      · intro reads
        exact absurd reads (other value)

/-- The reader takes only symbols of a kind from the front of a text. -/
def TakesOnly (kind : Symbol → Prop) (reader : Reader Symbol Value) : Prop :=
  ∀ text value rest, Reads reader text value rest →
    ∃ taken, text = taken ++ rest ∧ ∀ symbol ∈ taken, kind symbol

variable {kind : Symbol → Prop}

theorem takesOnly_pure (value : Value) :
    TakesOnly kind (Pure.pure value : Reader Symbol Value) := by
  intro text found rest reads
  have equal : (value, text) = (found, rest) := Option.some.inj reads
  cases equal
  exact ⟨[], rfl, by simp⟩

theorem takesOnly_failure : TakesOnly kind (failure : Reader Symbol Value) := by
  intro text found rest reads
  cases reads

theorem TakesOnly.bind {reader : Reader Symbol Value} {next : Value → Reader Symbol Result}
    (first : TakesOnly kind reader) (second : ∀ value, TakesOnly kind (next value)) :
    TakesOnly kind (reader >>= next) := by
  intro text result rest reads
  obtain ⟨value, middle, readsFirst, readsSecond⟩ := reads_bind_iff.mp reads
  obtain ⟨taken, rfl, ofKind⟩ := first text value middle readsFirst
  obtain ⟨later, rfl, laterOfKind⟩ := second value middle result rest readsSecond
  refine ⟨taken ++ later, (List.append_assoc _ _ _).symm, fun symbol member => ?_⟩
  rcases List.mem_append.mp member with inTaken | inLater
  · exact ofKind symbol inTaken
  · exact laterOfKind symbol inLater

theorem TakesOnly.orElse {first second : Reader Symbol Value}
    (takesFirst : TakesOnly kind first) (takesSecond : TakesOnly kind second) :
    TakesOnly kind (first <|> second) := by
  intro text value rest reads
  unfold Reads at reads
  rw [orElse_run] at reads
  cases run : first text with
  | none =>
      rw [run] at reads
      exact takesSecond text value rest reads
  | some pair =>
      rw [run] at reads
      exact takesFirst text value rest (run.trans reads)

theorem takesOnly_guard (condition : Prop) [Decidable condition] :
    TakesOnly kind (guard condition : Reader Symbol Unit) := by
  unfold guard
  split
  · exact takesOnly_pure ()
  · exact takesOnly_failure

theorem takesOnly_symbol {test : Symbol → Bool} (ofKind : ∀ next, test next = true → kind next) :
    TakesOnly kind (symbol test) := by
  intro text value rest reads
  cases text with
  | nil => cases reads
  | cons next text =>
      unfold Reads symbol at reads
      rw [Option.ite_none_right_eq_some, Option.some.injEq, Prod.mk.injEq] at reads
      obtain ⟨passes, rfl, rfl⟩ := reads
      exact ⟨[next], rfl, by simpa using ofKind next passes⟩

theorem takesOnly_many {test : Symbol → Bool} (ofKind : ∀ next, test next = true → kind next) :
    TakesOnly kind (many test) := by
  intro text value rest reads
  have equal : (text.takeWhile test, text.dropWhile test) = (value, rest) :=
    Option.some.inj reads
  cases equal
  exact ⟨text.takeWhile test, List.takeWhile_append_dropWhile.symm,
    fun next member => ofKind next (List.mem_takeWhile_imp member)⟩

theorem takesOnly_expect [DecidableEq Symbol] {expected : List Symbol}
    (ofKind : ∀ symbol ∈ expected, kind symbol) : TakesOnly kind (expect expected) := by
  intro text value rest reads
  unfold Reads expect at reads
  rw [Option.ite_none_right_eq_some, Option.some.injEq, Prod.mk.injEq] at reads
  obtain ⟨initial, -, rfl⟩ := reads
  obtain ⟨after, rfl⟩ := List.isPrefixOf_iff_prefix.mp initial
  exact ⟨expected, by rw [List.drop_left], ofKind⟩

/-- A text that is read to its end has only symbols of the kind. -/
theorem TakesOnly.of_readAll {reader : Reader Symbol Value} (takes : TakesOnly kind reader)
    {text : List Symbol} {value : Value} (read : readAll reader text = some value) :
    ∀ symbol ∈ text, kind symbol := by
  obtain ⟨taken, rfl, ofKind⟩ := takes text value [] (readAll_eq_some_iff.mp read)
  simpa using ofKind

/-- What is read and the number of symbols taken for it are related. -/
def Measured (relation : Value → Nat → Prop) (reader : Reader Symbol Value) : Prop :=
  ∀ text value rest, Reads reader text value rest →
    ∃ taken, text = taken ++ rest ∧ relation value taken.length

variable {relation : Value → Nat → Prop} {final : Result → Nat → Prop}

theorem measured_pure {value : Value} (holds : relation value 0) :
    Measured relation (Pure.pure value : Reader Symbol Value) := by
  intro text found rest reads
  have equal : (value, text) = (found, rest) := Option.some.inj reads
  cases equal
  exact ⟨[], rfl, holds⟩

theorem Measured.mono {weaker : Value → Nat → Prop} {reader : Reader Symbol Value}
    (measured : Measured relation reader)
    (implies : ∀ value count, relation value count → weaker value count) :
    Measured weaker reader := by
  intro text value rest reads
  obtain ⟨taken, splits, related⟩ := measured text value rest reads
  exact ⟨taken, splits, implies value _ related⟩

theorem measured_failure : Measured relation (failure : Reader Symbol Value) := by
  intro text found rest reads
  cases reads

theorem Measured.bind {reader : Reader Symbol Value} {next : Value → Reader Symbol Result}
    (first : Measured relation reader)
    (second : ∀ value count, relation value count →
      Measured (fun result more => final result (count + more)) (next value)) :
    Measured final (reader >>= next) := by
  intro text result rest reads
  obtain ⟨value, middle, readsFirst, readsSecond⟩ := reads_bind_iff.mp reads
  obtain ⟨taken, rfl, related⟩ := first text value middle readsFirst
  obtain ⟨later, rfl, relatedLater⟩ := second value _ related middle result rest readsSecond
  rw [← List.length_append] at relatedLater
  exact ⟨taken ++ later, (List.append_assoc _ _ _).symm, relatedLater⟩

theorem Measured.orElse {first second : Reader Symbol Value}
    (measuredFirst : Measured relation first) (measuredSecond : Measured relation second) :
    Measured relation (first <|> second) := by
  intro text value rest reads
  unfold Reads at reads
  rw [orElse_run] at reads
  cases run : first text with
  | none =>
      rw [run] at reads
      exact measuredSecond text value rest reads
  | some pair =>
      rw [run] at reads
      exact measuredFirst text value rest (run.trans reads)

theorem measured_guard (condition : Prop) [Decidable condition] :
    Measured (fun _ count => condition ∧ count = 0) (guard condition : Reader Symbol Unit) := by
  unfold guard
  split
  next holds => exact measured_pure ⟨holds, rfl⟩
  next => exact measured_failure

theorem measured_symbol (test : Symbol → Bool) :
    Measured (fun next count => test next = true ∧ count = 1) (symbol test) := by
  intro text value rest reads
  cases text with
  | nil => cases reads
  | cons next text =>
      unfold Reads symbol at reads
      rw [Option.ite_none_right_eq_some, Option.some.injEq, Prod.mk.injEq] at reads
      obtain ⟨passes, rfl, rfl⟩ := reads
      exact ⟨[next], rfl, passes, rfl⟩

theorem measured_many (test : Symbol → Bool) :
    Measured (fun symbols count => count = symbols.length) (many test) := by
  intro text value rest reads
  have equal : (text.takeWhile test, text.dropWhile test) = (value, rest) :=
    Option.some.inj reads
  cases equal
  exact ⟨text.takeWhile test, List.takeWhile_append_dropWhile.symm, rfl⟩

theorem measured_expect [DecidableEq Symbol] (expected : List Symbol) :
    Measured (fun _ count => count = expected.length) (expect expected) := by
  intro text value rest reads
  unfold Reads expect at reads
  rw [Option.ite_none_right_eq_some, Option.some.injEq, Prod.mk.injEq] at reads
  obtain ⟨initial, -, rfl⟩ := reads
  obtain ⟨after, rfl⟩ := List.isPrefixOf_iff_prefix.mp initial
  exact ⟨expected, by rw [List.drop_left], rfl⟩

/-- A text that is read to its end is related to its value. -/
theorem Measured.of_readAll {reader : Reader Symbol Value} (measured : Measured relation reader)
    {text : List Symbol} {value : Value} (read : readAll reader text = some value) :
    relation value text.length := by
  obtain ⟨taken, rfl, related⟩ := measured text value [] (readAll_eq_some_iff.mp read)
  simpa using related

end TextReaders
