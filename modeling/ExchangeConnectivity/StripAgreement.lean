import ExchangeConnectivity.TrimAgreement

/-!
# Agreement of the stripping functions

`strip` erases the two ends of a string, `strip_fast` looks its characters up
in a table and moves the middle to the front.  The first needs a character to
keep; the second needs a string that is not empty, and ASCII characters
wherever it looks.
-/

namespace ExchangeConnectivity

open ByteStrings Trimming FailingComputations

namespace StringUtilities

/-- The characters to strip. -/
def isStripped (character : UInt8) : Bool :=
  [' '.toUInt8, '\t'.toUInt8, '\r'.toUInt8, '\n'.toUInt8].contains character

theorem any_symbols (character : UInt8) :
    (symbols.any fun symbol => symbol == character) = isStripped character := by
  rw [Bool.eq_iff_iff, isStripped, List.contains_iff_mem]
  simp only [symbols, List.any_cons, List.any_nil, Bool.or_eq_true, beq_iff_eq,
    List.mem_cons, List.not_mem_nil]
  grind

theorem uint32_eq {value : Int} {size : Nat} (equal : value = size) (bound : size < 2 ^ 32) :
    uint32 value = size := by
  rw [equal, uint32_of_lt (by omega) (by omega), Int.toNat_natCast]

/-- The table marks the stripped characters among the ASCII ones. -/
theorem inTbl_of_ascii {character : UInt8} (isAscii : character < 128) :
    inTbl character = .ok (isStripped character) := by
  have all : ∀ code : Fin 128, inTbl (UInt8.ofNat code.val) =
      .ok (isStripped (UInt8.ofNat code.val)) := by
    decide +kernel
  have bound : character.toNat < 128 := isAscii
  have at_code := all ⟨character.toNat, bound⟩
  rwa [UInt8.ofNat_toNat] at at_code

/-- Any other character is a negative index. -/
theorem inTbl_of_not_ascii {character : UInt8} (notAscii : ¬ character < 128) :
    inTbl character = .error (.outOfTable (charIndex character)) := by
  have all : ∀ code : Fin 128, inTbl (UInt8.ofNat (code.val + 128)) =
      .error (.outOfTable (charIndex (UInt8.ofNat (code.val + 128)))) := by
    decide +kernel
  have upper := character.toNat_lt
  have lower : 128 ≤ character.toNat := Nat.le_of_not_lt notAscii
  have at_code := all ⟨character.toNat - 128, by omega⟩
  rwa [Nat.sub_add_cancel lower, UInt8.ofNat_toNat] at at_code

theorem ascii_of_isStripped {character : UInt8} (stripped : isStripped character = true) :
    character < 128 := by
  rw [isStripped, List.contains_iff_mem] at stripped
  have all : ∀ symbol ∈ [' '.toUInt8, '\t'.toUInt8, '\r'.toUInt8, '\n'.toUInt8],
      symbol < 128 := by
    decide +kernel
  exact all character stripped

section Loops

variable {str : Bytes}

theorem charAt_inTbl_of_stripped {index : Nat}
    (found : ∃ character, str[index]? = some character ∧ isStripped character = true) :
    (charAt str index >>= inTbl) = .ok true := by
  obtain ⟨character, here, stripped⟩ := found
  rw [charAt_of_getElem? here, ok_bind, inTbl_of_ascii (ascii_of_isStripped stripped),
    stripped]

/-- A test on a character to keep ends the loop, or fails in the table. -/
theorem charAt_inTbl_of_kept {index : Nat} {character : UInt8}
    (found : str[index]? = some character) (kept : isStripped character = false) :
    (charAt str index >>= inTbl) =
      if character < 128 then .ok false else .error (.outOfTable (charIndex character)) := by
  rw [charAt_of_getElem? found, ok_bind]
  by_cases isAscii : character < 128
  · rw [if_pos isAscii, inTbl_of_ascii isAscii, kept]
  · rw [if_neg isAscii, inTbl_of_not_ascii isAscii]

/-- A loop that comes to a character to keep ends there, or fails in the
table. -/
theorem scan_of_kept {continues : Nat → Except Fault Bool} {next : Nat → Nat} {index : Nat}
    {character : UInt8} (found : str[index]? = some character)
    (kept : isStripped character = false)
    (test : continues index = (charAt str index >>= inTbl)) (rounds : Nat) :
    scan Fault.unfinished continues next (rounds + 1) index =
      if character < 128 then .ok index else .error (.outOfTable (charIndex character)) := by
  rw [charAt_inTbl_of_kept found kept] at test
  by_cases isAscii : character < 128
  · rw [if_pos isAscii] at test ⊢
    exact scan_stop test rounds
  · rw [if_neg isAscii] at test ⊢
    exact scan_error test rounds

/-- The first loop ends at the first character to keep. -/
theorem scanLeft_eq {stop right : Nat} {character : UInt8} (le : stop ≤ right)
    (inside : right < str.length) (bound : str.length < 2 ^ 32)
    (below : AllMatched isStripped str 0 stop) (found : str[stop]? = some character)
    (kept : isStripped character = false) :
    scanLeft str right =
      if character < 128 then .ok stop else .error (.outOfTable (charIndex character)) := by
  have split : rounds str = stop - 0 + (str.length - stop + 1) := by
    rw [rounds]
    omega
  rw [scanLeft, split, scan_up (Nat.zero_le stop)]
  · exact scan_of_kept found kept (if_pos le) _
  · intro index lower upper
    refine ⟨?_, uint32_eq (by omega) (by omega)⟩
    rw [if_pos (by omega), charAt_inTbl_of_stripped (below index lower upper)]

/-- The second loop ends at the last character to keep. -/
theorem scanRight_eq {left stop right : Nat} {character : UInt8} (leftLe : left ≤ stop)
    (le : stop ≤ right) (inside : right < str.length) (bound : str.length < 2 ^ 32)
    (above : AllMatched isStripped str (stop + 1) (right + 1))
    (found : str[stop]? = some character) (kept : isStripped character = false) :
    scanRight str left right =
      if character < 128 then .ok stop else .error (.outOfTable (charIndex character)) := by
  have split : rounds str = right - stop + (str.length - (right - stop) + 1) := by
    rw [rounds]
    omega
  rw [scanRight, split, scan_down le]
  · exact scan_of_kept found kept (if_pos leftLe) _
  · intro index lower upper
    refine ⟨?_, uint32_eq (by omega) (by omega)⟩
    rw [if_pos (by omega), charAt_inTbl_of_stripped (above index lower (by omega))]

/-- The third loop moves the characters from `left` to `right` down to `idx`;
what it still reads lies above what it has written. -/
theorem shiftLoop_eq {rounds count idx left right : Nat} (le : idx ≤ left)
    (counted : left + count = right + 1) (inside : right < str.length)
    (bound : str.length < 2 ^ 32) (enough : count < rounds) :
    ∃ shifted, shiftLoop rounds str idx left right = .ok (shifted, idx + count) ∧
      shifted.take (idx + count) = str.take idx ++ (str.drop left).take count := by
  induction count generalizing rounds str idx left with
  | zero =>
      obtain ⟨rounds, rfl⟩ : ∃ more, rounds = more + 1 := ⟨rounds - 1, by omega⟩
      refine ⟨str, ?_, by simp⟩
      rw [shiftLoop, if_neg (by omega), Nat.add_zero]
  | succ count ih =>
      obtain ⟨rounds, rfl⟩ : ∃ more, rounds = more + 1 := ⟨rounds - 1, by omega⟩
      have leftBound : left < str.length := by omega
      have idxBound : idx < str.length := by omega
      obtain ⟨shifted, run, taken⟩ := @ih (str.set idx str[left]) rounds (idx + 1) (left + 1)
        (by omega) (by omega) (by rw [List.length_set]; exact inside)
        (by rw [List.length_set]; exact bound) (by omega)
      have idxNext : uint32 ((idx : Int) + 1) = idx + 1 := uint32_eq (by omega) (by omega)
      have leftNext : uint32 ((left : Int) + 1) = left + 1 := uint32_eq (by omega) (by omega)
      have sum : idx + (count + 1) = idx + 1 + count := by omega
      refine ⟨shifted, ?_, ?_⟩
      · rw [shiftLoop, if_pos (by omega),
          charAt_of_getElem? (List.getElem?_eq_getElem leftBound), ok_bind, setAt,
          if_pos idxBound, ok_bind, idxNext, leftNext, run, sum]
      · have written : (str.set idx str[left]).take (idx + 1) = str.take idx ++ [str[left]] := by
          rw [List.take_add_one, List.take_set_of_le (Nat.le_refl idx)]
          simp [idxBound]
        rw [sum, taken, written, List.drop_set_of_lt (by omega),
          List.drop_eq_getElem_cons leftBound, List.take_succ_cons, List.append_assoc,
          List.singleton_append]

end Loops

theorem strip_of_cut {str : StdString} {before middle after : Bytes}
    (cut : Cut isStripped str.bytes before middle after) : strip str = .ok middle := by
  rw [strip, funext any_symbols, eraseEnds_of_cut cut str.length_lt]

theorem strip_of_all {str : StdString}
    (all : ∀ character ∈ str.bytes, isStripped character = true) :
    strip str = .error (.outOfString npos) := by
  rw [strip, funext any_symbols, eraseEnds_of_all all str.length_lt]

section Cuts

variable {str : StdString} {before middle after : Bytes}

theorem lastIndex_eq (bound : str.bytes.length < 2 ^ 32) (nonempty : 0 < str.bytes.length) :
    uint32 (sizeType (str.bytes.length - 1)) = str.bytes.length - 1 := by
  have size : sizeType ((str.bytes.length : Int) - 1) = str.bytes.length - 1 :=
    sizeType_eq (by omega) (by omega)
  rw [size]
  exact uint32_eq rfl (by omega)

theorem scanLeft_of_cut (cut : Cut isStripped str.bytes before middle after)
    (bound : str.bytes.length < 2 ^ 32) :
    scanLeft str.bytes (str.bytes.length - 1) =
      if middle.head cut.nonempty < 128 then .ok before.length
      else .error (.outOfTable (charIndex (middle.head cut.nonempty))) := by
  have length := cut.length_eq
  have positive := cut.middle_length_pos
  exact scanLeft_eq (by omega) (by omega) bound (allMatched_before cut) cut.getElem?_first
    cut.first_kept

theorem scanRight_of_cut (cut : Cut isStripped str.bytes before middle after)
    (bound : str.bytes.length < 2 ^ 32) :
    scanRight str.bytes before.length (str.bytes.length - 1) =
      if middle.getLast cut.nonempty < 128 then .ok (before.length + middle.length - 1)
      else .error (.outOfTable (charIndex (middle.getLast cut.nonempty))) := by
  have length := cut.length_eq
  have positive := cut.middle_length_pos
  have above := allMatched_after cut
  have aboveLast : AllMatched isStripped str.bytes (before.length + middle.length - 1 + 1)
      (str.bytes.length - 1 + 1) :=
    fun index lower upper => above index (by omega) (by omega)
  exact scanRight_eq (by omega) (by omega) (by omega) bound aboveLast cut.getElem?_last
    cut.last_kept

/-- The string is stripped when the first and the last character to keep are
ASCII characters. -/
theorem stripFast_of_cut (cut : Cut isStripped str.bytes before middle after)
    (bound : str.bytes.length < 2 ^ 32) (firstAscii : middle.head cut.nonempty < 128)
    (lastAscii : middle.getLast cut.nonempty < 128) : stripFast str = .ok middle := by
  have length := cut.length_eq
  have positive := cut.middle_length_pos
  have left := scanLeft_of_cut cut bound
  have right := scanRight_of_cut cut bound
  rw [if_pos firstAscii] at left
  rw [if_pos lastAscii] at right
  have counted : before.length + middle.length = before.length + middle.length - 1 + 1 := by
    omega
  have enough : middle.length < rounds str.bytes := by
    rw [rounds]
    omega
  obtain ⟨shifted, run, taken⟩ :=
    shiftLoop_eq (Nat.zero_le _) counted (by omega) bound enough
  rw [Nat.zero_add, List.take_zero, List.nil_append, cut.slice_eq] at taken
  have filled : middle.length - shifted.length = 0 := by
    have takenLength := congrArg List.length taken
    rw [List.length_take] at takenLength
    omega
  simp only [stripFast, lastIndex_eq bound (by omega), left, right, run, ok_bind, resize,
    Nat.zero_add, taken, filled, List.replicate_zero, List.append_nil]

/-- Both ends of the middle are looked up, so neither may be outside ASCII. -/
theorem ascii_of_stripFast (cut : Cut isStripped str.bytes before middle after)
    (bound : str.bytes.length < 2 ^ 32) {result : Bytes} (run : stripFast str = .ok result) :
    middle.head cut.nonempty < 128 ∧ middle.getLast cut.nonempty < 128 := by
  have length := cut.length_eq
  have positive := cut.middle_length_pos
  simp only [stripFast, lastIndex_eq bound (by omega), scanLeft_of_cut cut bound] at run
  by_cases firstAscii : middle.head cut.nonempty < 128
  · rw [if_pos firstAscii, ok_bind, scanRight_of_cut cut bound] at run
    by_cases lastAscii : middle.getLast cut.nonempty < 128
    · exact ⟨firstAscii, lastAscii⟩
    · rw [if_neg lastAscii] at run
      cases run
  · rw [if_neg firstAscii] at run
    cases run

end Cuts

/-- Both functions stay within the string and the table, and return the string
without its leading and trailing white space. -/
structure StripsAgree (str : StdString) : Prop where
  first : strip str = .ok (trimmed isStripped str.bytes)
  second : stripFast str = .ok (trimmed isStripped str.bytes)

/-- The first character that is not stripped. -/
def firstKept (str : Bytes) : Option UInt8 :=
  str.find? fun character => !isStripped character

/-- The last character that is not stripped. -/
def lastKept (str : Bytes) : Option UInt8 :=
  str.reverse.find? fun character => !isStripped character

/-- The functions agree exactly on the strings whose first and last character
to keep exist and are ASCII characters. -/
theorem stripsAgree_iff (str : StdString) (bound : str.bytes.length < 2 ^ 32) :
    StripsAgree str ↔
      (∃ first, firstKept str.bytes = some first ∧ first < 128) ∧
        ∃ last, lastKept str.bytes = some last ∧ last < 128 := by
  by_cases kept : ∃ character ∈ str.bytes, isStripped character = false
  · obtain ⟨before, middle, after, cut⟩ := exists_cut kept
    rw [firstKept, lastKept, cut.find?_eq, cut.find?_reverse_eq]
    simp only [Option.some.injEq, exists_eq_left']
    constructor
    · exact fun agree => ascii_of_stripFast cut bound agree.second
    · rintro ⟨firstAscii, lastAscii⟩
      exact
        { first := by rw [strip_of_cut cut, cut.trimmed_eq]
          second := by rw [stripFast_of_cut cut bound firstAscii lastAscii, cut.trimmed_eq] }
  · have all : ∀ character ∈ str.bytes, isStripped character = true := by
      simpa using kept
    constructor
    · intro agree
      have first := agree.first
      rw [strip_of_all all] at first
      cases first
    · rintro ⟨⟨first, found, -⟩, -⟩
      have keptFirst := List.find?_some found
      rw [all first (List.mem_of_find?_eq_some found)] at keptFirst
      cases keptFirst

theorem stripsAgree_of_text : StripsAgree ⟨ascii "\tab \n", by decide⟩ :=
  (stripsAgree_iff ⟨ascii "\tab \n", by decide⟩ (by decide)).mpr
    ⟨⟨'a'.toUInt8, by decide, by decide⟩, 'b'.toUInt8, by decide, by decide⟩

/-- On the empty string `strip` reads at the largest size, `strip_fast` at the
largest 32-bit index. -/
theorem strips_of_empty :
    strip ⟨[], by decide⟩ = .error (.outOfString npos) ∧
      stripFast ⟨[], by decide⟩ = .error (.outOfString (2 ^ 32 - 1)) ∧
      ¬ StripsAgree ⟨[], by decide⟩ := by
  have first : strip ⟨[], by decide⟩ = .error (.outOfString npos) := by decide
  refine ⟨first, by decide +kernel, fun agree => ?_⟩
  have returned := agree.first
  rw [first] at returned
  cases returned

end StringUtilities

end ExchangeConnectivity
