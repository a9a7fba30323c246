import Mathlib.Data.List.Basic
import Mathlib.Tactic.Common

/-!
# Byte strings and their splits

Strings of arbitrary bytes, ASCII literals and their case, and the ways of
cutting a string at the first occurrence of a separator, and at the first and
the last occurrence of a pattern.
-/

namespace ByteStrings

abbrev Bytes := List UInt8

/-- The bytes of an ASCII literal. -/
def ascii (literal : String) : Bytes :=
  literal.toList.map Char.toUInt8

/-- `std::tolower` in the C locale, on each byte. -/
def toLower (value : Bytes) : Bytes :=
  value.map fun byte => if 'A'.toUInt8 ≤ byte ∧ byte ≤ 'Z'.toUInt8 then byte + 32 else byte

section Splits

variable {Symbol : Type*} [DecidableEq Symbol]

/-- The parts before and after the first occurrence of a separator. -/
def splitFirst (separator : Symbol) :
    List Symbol → Option (List Symbol × List Symbol)
  | [] => none
  | symbol :: rest =>
      if symbol = separator then some ([], rest)
      else (splitFirst separator rest).map fun parts =>
        (symbol :: parts.1, parts.2)

/-- What follows the first occurrence of a pattern. -/
def afterFirst (pattern : List Symbol) : List Symbol → Option (List Symbol)
  | [] => if pattern.isPrefixOf [] then some [] else none
  | symbol :: rest =>
      if pattern.isPrefixOf (symbol :: rest) then
        some ((symbol :: rest).drop pattern.length)
      else afterFirst pattern rest

/-- The parts before and after the last occurrence of a pattern. -/
def splitLast (pattern : List Symbol) :
    List Symbol → Option (List Symbol × List Symbol)
  | [] => none
  | symbol :: rest =>
      match splitLast pattern rest with
      | some (before, after) => some (symbol :: before, after)
      | none =>
          if pattern.isPrefixOf (symbol :: rest) then
            some ([], (symbol :: rest).drop pattern.length)
          else none

theorem splitFirst_append {separator : Symbol} {before : List Symbol}
    (absent : separator ∉ before) (after : List Symbol) :
    splitFirst separator (before ++ separator :: after) =
      some (before, after) := by
  induction before with
  | nil => simp [splitFirst]
  | cons symbol before ih =>
      simp only [List.mem_cons, not_or] at absent
      rw [List.cons_append, splitFirst, if_neg (Ne.symm absent.1), ih absent.2]
      rfl

theorem splitLast_eq_none {first : Symbol} {pattern symbols : List Symbol}
    (absent : first ∉ symbols) : splitLast (first :: pattern) symbols = none := by
  induction symbols with
  | nil => rfl
  | cons symbol symbols ih =>
      simp only [List.mem_cons, not_or] at absent
      rw [splitLast, ih absent.2]
      simp [List.isPrefixOf, absent.1]

theorem splitLast_append {first : Symbol} {pattern : List Symbol}
    (before : List Symbol) {after : List Symbol}
    (absentPattern : first ∉ pattern) (absentAfter : first ∉ after) :
    splitLast (first :: pattern) (before ++ (first :: pattern) ++ after) =
      some (before, after) := by
  induction before with
  | nil =>
      have absent : first ∉ pattern ++ after := by
        simp [absentPattern, absentAfter]
      have starts : (first :: pattern).isPrefixOf (first :: (pattern ++ after)) :=
        List.isPrefixOf_iff_prefix.mpr ⟨after, rfl⟩
      rw [List.nil_append, List.cons_append, splitLast, splitLast_eq_none absent]
      simp only [starts, if_true, List.length_cons, List.drop_succ_cons,
        List.drop_left]
  | cons symbol before ih =>
      rw [List.cons_append, List.cons_append, splitLast, ih]

theorem eq_append_of_afterFirst {pattern symbols rest : List Symbol}
    (found : afterFirst pattern symbols = some rest) :
    ∃ before, symbols = before ++ pattern ++ rest := by
  induction symbols with
  | nil =>
      rw [afterFirst, Option.ite_none_right_eq_some] at found
      obtain ⟨initial, restEq⟩ := found
      have empty := List.prefix_nil.mp (List.isPrefixOf_iff_prefix.mp initial)
      exact ⟨[], by simp [empty, ← Option.some.inj restEq]⟩
  | cons symbol symbols ih =>
      rw [afterFirst] at found
      by_cases initial : pattern.isPrefixOf (symbol :: symbols) = true
      · rw [if_pos initial] at found
        obtain ⟨after, shape⟩ := List.isPrefixOf_iff_prefix.mp initial
        refine ⟨[], ?_⟩
        rw [← Option.some.inj found, ← shape, List.drop_left, List.nil_append]
      · rw [if_neg initial] at found
        obtain ⟨before, shape⟩ := ih found
        exact ⟨symbol :: before, by rw [shape]; rfl⟩

theorem afterFirst_eq_none_iff {pattern symbols : List Symbol} :
    afterFirst pattern symbols = none ↔ ¬ pattern <:+: symbols := by
  induction symbols with
  | nil => simp [afterFirst, List.isPrefixOf_iff_prefix]
  | cons symbol symbols ih =>
      rw [afterFirst, List.infix_cons_iff, not_or, ← ih, ← List.isPrefixOf_iff_prefix]
      by_cases initial : pattern.isPrefixOf (symbol :: symbols) = true
      · simp [initial]
      · simp [initial]

theorem afterFirst_append {first : Symbol} {before : List Symbol} (absent : first ∉ before)
    (pattern after : List Symbol) :
    afterFirst (first :: pattern) (before ++ first :: (pattern ++ after)) = some after := by
  induction before with
  | nil =>
      have initial : (first :: pattern).isPrefixOf (first :: (pattern ++ after)) = true :=
        List.isPrefixOf_iff_prefix.mpr ⟨after, rfl⟩
      rw [List.nil_append, afterFirst, if_pos initial, List.length_cons, List.drop_succ_cons,
        List.drop_left]
  | cons symbol before ih =>
      simp only [List.mem_cons, not_or] at absent
      have different : ¬ (first :: pattern).isPrefixOf
          (symbol :: (before ++ first :: (pattern ++ after))) = true := by
        simp [List.isPrefixOf, absent.1]
      rw [List.cons_append, afterFirst, if_neg different, ih absent.2]

end Splits

end ByteStrings
