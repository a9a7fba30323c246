import ExchangeConnectivity.BoundedLoops
import ExchangeConnectivity.StripAgreement

/-!
# Removal of characters in place

`remove_chars_from_string` writes the characters to keep over the front of the
string it reads.  Like `strip_fast` it looks its characters up in a table, but
every one of them.
-/

namespace ExchangeConnectivity

open BoundedLoops ByteStrings FailingComputations Trimming

namespace StringUtilities

/-- `tmp[c] = 1` for the four characters, of which two are the same. -/
def toExclude : List UInt8 :=
  ['\t', '\n', '\r', '\n'].foldl (fun tmp c => tmp.set c.toNat 1) (List.replicate 256 0)

/-- `0 == toExclude[character]`. -/
def keptByTable (character : UInt8) : Except Fault Bool :=
  match toExclude[charIndex character]? with
  | some entry => .ok (0 == entry)
  | none => .error (.outOfTable (charIndex character))

structure RemovalState where
  str : Bytes
  index : Nat

/-- One round of `for (char c: str)`, which reads the string it writes to. -/
def removalRound (state : RemovalState) (position : Nat) : Except Fault RemovalState := do
  let c ← charAt state.str position
  if ← keptByTable c then
    let str ← setAt state.str state.index c
    .ok { str, index := sizeType (state.index + 1) }
  else .ok state

def removeCharsFromString (str : StdString) : Except Fault Bytes := do
  let state ← (List.range str.bytes.length).foldlM removalRound { str := str.bytes, index := 0 }
  .ok (resize state.str state.index)

def isExcluded (character : UInt8) : Bool :=
  ['\t'.toUInt8, '\n'.toUInt8, '\r'.toUInt8].contains character

/-- The table marks the excluded characters among the ASCII ones. -/
theorem keptByTable_of_ascii {character : UInt8} (isAscii : character < 128) :
    keptByTable character = .ok !isExcluded character := by
  have all : ∀ code : Fin 128, keptByTable (UInt8.ofNat code.val) =
      .ok !isExcluded (UInt8.ofNat code.val) := by
    decide +kernel
  have bound : character.toNat < 128 := isAscii
  have at_code := all ⟨character.toNat, bound⟩
  rwa [UInt8.ofNat_toNat] at at_code

/-- Any other character is a negative index. -/
theorem keptByTable_of_not_ascii {character : UInt8} (notAscii : ¬ character < 128) :
    keptByTable character = .error (.outOfTable (charIndex character)) := by
  have all : ∀ code : Fin 128, keptByTable (UInt8.ofNat (code.val + 128)) =
      .error (.outOfTable (charIndex (UInt8.ofNat (code.val + 128)))) := by
    decide +kernel
  have upper := character.toNat_lt
  have lower : 128 ≤ character.toNat := Nat.le_of_not_lt notAscii
  have at_code := all ⟨character.toNat - 128, by omega⟩
  rwa [Nat.sub_add_cancel lower, UInt8.ofNat_toNat] at at_code

/-- Whatever is excluded is stripped as well. -/
theorem not_isExcluded {character : UInt8} (kept : isStripped character = false) :
    (!isExcluded character) = true := by
  simp only [isStripped, List.contains_eq_mem, List.mem_cons, List.not_mem_nil, or_false,
    decide_eq_false_iff_not, not_or] at kept
  obtain ⟨-, notTab, notReturn, notNewline⟩ := kept
  simp [isExcluded, notTab, notReturn, notNewline]

/-- What a round finds: the characters kept so far are written over the front,
and what is still to be read is as it was. -/
structure RemovedBefore (bytes : Bytes) (position : Nat) (state : RemovalState) : Prop where
  index_le : state.index ≤ position
  length : state.str.length = bytes.length
  written : state.str.take state.index =
    (bytes.take position).filter fun character => !isExcluded character
  unread : state.str.drop position = bytes.drop position

namespace RemovedBefore

variable {bytes : Bytes} {position : Nat} {state : RemovalState}

theorem getElem?_eq (removed : RemovedBefore bytes position state) :
    state.str[position]? = bytes[position]? := by
  have unread := congrArg List.head? removed.unread
  rwa [List.head?_drop, List.head?_drop] at unread

theorem round (removed : RemovedBefore bytes position state) (inside : position < bytes.length)
    (bound : bytes.length < 2 ^ 63) (isAscii : bytes[position] < 128) :
    ∃ next, removalRound state position = .ok next ∧
      RemovedBefore bytes (position + 1) next := by
  obtain ⟨indexLe, length, written, unread⟩ := removed
  have found : state.str[position]? = some bytes[position] := by
    rw [getElem?_eq ⟨indexLe, length, written, unread⟩, List.getElem?_eq_getElem inside]
  have unreadNext : state.str.drop (position + 1) = bytes.drop (position + 1) := by
    rw [← List.drop_drop, unread, List.drop_drop]
  rw [removalRound, charAt_of_getElem? found, ok_bind, keptByTable_of_ascii isAscii, ok_bind]
  cases excluded : isExcluded bytes[position] with
  | true =>
      refine ⟨state, rfl, Nat.le_succ_of_le indexLe, length, ?_, unreadNext⟩
      rw [List.take_succ_eq_append_getElem inside, List.filter_append, written]
      simp [excluded]
  | false =>
      have indexInside : state.index < state.str.length := by omega
      have indexNext : sizeType ((state.index : Int) + 1) = state.index + 1 :=
        sizeType_eq (by omega) (by omega)
      refine ⟨{ str := state.str.set state.index bytes[position], index := state.index + 1 },
        ?_, Nat.succ_le_succ indexLe, ?_, ?_, ?_⟩
      · rw [Bool.not_false, if_pos rfl, setAt, if_pos indexInside, ok_bind, indexNext]
      · rw [List.length_set]
        exact length
      · have putLast : (state.str.set state.index bytes[position]).take (state.index + 1) =
            state.str.take state.index ++ [bytes[position]] := by
          rw [List.take_succ_eq_append_getElem (by rwa [List.length_set]),
            List.take_set_of_le (Nat.le_refl _), List.getElem_set_self]
        rw [putLast, List.take_succ_eq_append_getElem inside, List.filter_append, written]
        simp [excluded]
      · rw [List.drop_set_of_lt (by omega)]
        exact unreadNext

end RemovedBefore

/-- The rounds up to the first character that is not an ASCII one. -/
theorem removed_before_first {before after : Bytes}
    (isAscii : ∀ character ∈ before, character < 128)
    (bound : (before ++ after).length < 2 ^ 63) :
    ∃ state, (List.range before.length).foldlM removalRound
        { str := before ++ after, index := 0 } = .ok state ∧
      RemovedBefore (before ++ after) before.length state := by
  refine foldlM_range_rule (fun position below state removed => ?_)
    ⟨Nat.le_refl 0, rfl, rfl, rfl⟩
  have inside : position < (before ++ after).length := by
    rw [List.length_append]
    omega
  apply removed.round inside bound
  rw [List.getElem_append_left below]
  exact isAscii _ (List.getElem_mem below)

variable {str : StdString}

theorem removeCharsFromString_of_ascii (isAscii : ∀ character ∈ str.bytes, character < 128) :
    removeCharsFromString str = .ok (str.bytes.filter fun character => !isExcluded character) := by
  have bound := str.length_lt
  obtain ⟨state, run, removed⟩ := @removed_before_first str.bytes [] isAscii (by simpa)
  rw [List.append_nil] at run removed
  have written := removed.written
  have indexLe := removed.index_le
  have length := removed.length
  have filled : state.index - state.str.length = 0 := by omega
  rw [List.take_length] at written
  rw [removeCharsFromString, run, ok_bind, resize, written, filled, List.replicate_zero,
    List.append_nil]

theorem removeCharsFromString_of_not_ascii {before after : Bytes} {character : UInt8}
    (split : str.bytes = before ++ character :: after)
    (isAscii : ∀ character ∈ before, character < 128) (notAscii : ¬ character < 128) :
    removeCharsFromString str = .error (.outOfTable (charIndex character)) := by
  have bound := str.length_lt
  rw [split] at bound
  obtain ⟨state, run, removed⟩ := removed_before_first isAscii bound
  have found : state.str[before.length]? = some character := by
    rw [removed.getElem?_eq, List.getElem?_append_right (Nat.le_refl _), Nat.sub_self]
    rfl
  have fault : removalRound state before.length = .error (.outOfTable (charIndex character)) := by
    rw [removalRound, charAt_of_getElem? found, ok_bind, keptByTable_of_not_ascii notAscii,
      error_bind]
  rw [removeCharsFromString, split, List.length_append, List.range_add, List.foldlM_append, run,
    ok_bind, List.length_cons, List.range_succ_eq_map, List.map_cons, List.foldlM_cons,
    Nat.add_zero, fault, error_bind, error_bind]

/-- What removal makes of a string: an ASCII one loses the excluded characters,
any other is refused at its first character that is not an ASCII one.  For an
ASCII string with something to keep it makes no difference whether it is
stripped, in either way, before the removal or after it. -/
structure Removes (str : StdString) : Prop where
  removes : (∀ character ∈ str.bytes, character < 128) →
    removeCharsFromString str = .ok (str.bytes.filter fun character => !isExcluded character)
  refuses : ∀ {before after : Bytes} {character : UInt8},
    str.bytes = before ++ character :: after → (∀ earlier ∈ before, earlier < 128) →
      ¬ character < 128 → removeCharsFromString str = .error (.outOfTable (charIndex character))
  commutes : (∀ character ∈ str.bytes, character < 128) →
    (∃ character ∈ str.bytes, isStripped character = false) →
      ∃ stripped removed : StdString, ∃ both,
        strip str = .ok stripped.bytes ∧ removeCharsFromString stripped = .ok both ∧
          removeCharsFromString str = .ok removed.bytes ∧ strip removed = .ok both ∧
            (str.bytes.length < 2 ^ 32 →
              stripFast str = .ok stripped.bytes ∧ stripFast removed = .ok both)

/-- Stripping and removal in either order leave the characters to keep of the
middle. -/
theorem removal_commutes {before middle after : Bytes}
    (cut : Cut isStripped str.bytes before middle after)
    (isAscii : ∀ character ∈ str.bytes, character < 128) :
    ∃ stripped removed : StdString, ∃ both,
      strip str = .ok stripped.bytes ∧ removeCharsFromString stripped = .ok both ∧
        removeCharsFromString str = .ok removed.bytes ∧ strip removed = .ok both ∧
          (str.bytes.length < 2 ^ 32 →
            stripFast str = .ok stripped.bytes ∧ stripFast removed = .ok both) := by
  let keep : UInt8 → Bool := fun character => !isExcluded character
  have bound := str.length_lt
  have length := cut.length_eq
  have shorter := List.length_filter_le keep str.bytes
  let stripped : StdString := ⟨middle, by omega⟩
  let removed : StdString := ⟨str.bytes.filter keep, by omega⟩
  have removedCut : Cut isStripped removed.bytes _ _ _ :=
    cut.filter fun _ kept => not_isExcluded kept
  have middleAscii : ∀ character ∈ middle, character < 128 := by
    intro character inside
    exact isAscii character (by simp [cut.parts, inside])
  have keptAscii : ∀ character ∈ middle.filter keep, character < 128 :=
    fun character inside => middleAscii character (List.mem_of_mem_filter inside)
  refine ⟨stripped, removed, middle.filter keep, strip_of_cut cut,
    removeCharsFromString_of_ascii middleAscii, removeCharsFromString_of_ascii isAscii,
    strip_of_cut removedCut, fun short => ⟨?_, ?_⟩⟩
  · exact stripFast_of_cut cut short (middleAscii _ (List.head_mem _))
      (middleAscii _ (List.getLast_mem _))
  · exact stripFast_of_cut removedCut (Nat.lt_of_le_of_lt shorter short)
      (keptAscii _ (List.head_mem _)) (keptAscii _ (List.getLast_mem _))

end StringUtilities

end ExchangeConnectivity
