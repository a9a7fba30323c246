import ExchangeConnectivity.StringUtilities

/-!
# Agreement of the trimming functions

On a string with a character other than the space all four functions return
the string without its leading and trailing spaces.  On the empty string and
on spaces only, `trim_1` and `trim_2` return the empty string, while the end
index of `trim_3` wraps below zero.
-/

namespace ExchangeConnectivity

open ByteStrings Trimming FailingComputations

namespace StringUtilities

theorem charAt_of_getElem? {str : Bytes} {index : Nat} {character : UInt8}
    (found : str[index]? = some character) : charAt str index = .ok character := by
  have bound : index < str.length := by
    by_contra outside
    rw [List.getElem?_eq_none (Nat.le_of_not_lt outside)] at found
    cases found
  rw [charAt, if_neg (Nat.ne_of_lt bound), found]

theorem charAt_of_length_lt {str : Bytes} {index : Nat} (outside : str.length < index) :
    charAt str index = .error (.outOfString index) := by
  rw [charAt, if_neg (Nat.ne_of_gt outside), List.getElem?_eq_none (Nat.le_of_lt outside)]

section Loops

variable {matched : UInt8 → Bool} {str : Bytes}

/-- The characters of an index range are all matched. -/
def AllMatched (matched : UInt8 → Bool) (str : Bytes) (lower upper : Nat) : Prop :=
  ∀ index, lower ≤ index → index < upper →
    ∃ character, str[index]? = some character ∧ matched character = true

/-- The character at an index is not matched. -/
def NotMatched (matched : UInt8 → Bool) (str : Bytes) (index : Nat) : Prop :=
  ∃ character, str[index]? = some character ∧ matched character = false

theorem charAt_matched {index : Nat} {result : Bool}
    (found : ∃ character, str[index]? = some character ∧ matched character = result) :
    matched <$> charAt str index = .ok result := by
  obtain ⟨character, here, rfl⟩ := found
  rw [charAt_of_getElem? here]
  rfl

theorem scanStart_eq {stop : Nat} (le : stop ≤ str.length) (bound : str.length < 2 ^ 63)
    (below : AllMatched matched str 0 stop)
    (stops : stop = str.length ∨ NotMatched matched str stop) :
    scanStart matched str = .ok stop := by
  have split : rounds str = stop - 0 + (str.length - stop + 1) := by
    rw [rounds]
    omega
  rw [scanStart, split, scan_up (Nat.zero_le stop)]
  · apply scan_stop
    rcases stops with rfl | notMatched
    · exact if_neg (Nat.lt_irrefl _)
    · by_cases inside : str.length > stop
      · rw [if_pos inside, charAt_matched notMatched]
      · rw [if_neg inside]
  · intro index lower upper
    have inside : str.length > index := by omega
    refine ⟨?_, sizeType_eq (by omega) (by omega)⟩
    rw [if_pos inside, charAt_matched (below index lower upper)]

theorem scanEnd_eq {stop last : Nat} (le : stop ≤ last) (inside : last < str.length)
    (bound : str.length < 2 ^ 63) (above : AllMatched matched str (stop + 1) (last + 1))
    (stops : stop = 0 ∨ NotMatched matched str stop) :
    scanEnd matched str last = .ok stop := by
  have split : rounds str = last - stop + (str.length - (last - stop) + 1) := by
    rw [rounds]
    omega
  rw [scanEnd, split, scan_down le]
  · apply scan_stop
    rcases stops with rfl | notMatched
    · exact if_neg fun nonzero => nonzero rfl
    · by_cases nonzero : stop ≠ 0
      · rw [if_pos nonzero, charAt_matched notMatched]
      · rw [if_neg nonzero]
  · intro index lower upper
    constructor
    · rw [if_pos (by omega), charAt_matched (above index lower (by omega))]
    · exact sizeType_eq (by omega) (by omega)

/-- An end index beyond the string is used at once. -/
theorem scanEnd_outside {last : Nat} (nonzero : last ≠ 0) (outside : str.length < last) :
    scanEnd matched str last = .error (.outOfString last) := by
  apply scan_error
  rw [if_pos nonzero, charAt_of_length_lt outside]
  rfl

theorem scanTrailing_eq {stop last : Nat} (inside : stop < last)
    (above : AllMatched isSpace str (stop + 1) last) (notSpace : NotMatched isSpace str stop) :
    scanTrailing str last = .ok stop := by
  induction last with
  | zero => exact absurd inside (Nat.not_lt_zero stop)
  | succ last ih =>
      rw [scanTrailing]
      by_cases here : stop = last
      · obtain ⟨character, found, kept⟩ := notSpace
        have different : character ≠ ' '.toUInt8 := by simpa [isSpace] using kept
        rw [← here, charAt_of_getElem? found, ok_bind, if_neg different]
      · obtain ⟨character, found, matched⟩ := above last (by omega) (by omega)
        have space : character = ' '.toUInt8 := by simpa [isSpace] using matched
        rw [charAt_of_getElem? found, ok_bind, if_pos space]
        exact ih (by omega) fun index lower upper => above index lower (by omega)

theorem scanTrailing_of_all {last : Nat} (all : AllMatched isSpace str 0 last) :
    scanTrailing str last = .ok 0 := by
  induction last with
  | zero => rfl
  | succ last ih =>
      obtain ⟨character, found, matched⟩ := all last (Nat.zero_le last) (Nat.lt_succ_self last)
      have space : character = ' '.toUInt8 := by simpa [isSpace] using matched
      rw [scanTrailing, charAt_of_getElem? found, ok_bind, if_pos space]
      exact ih fun index lower upper => all index lower (by omega)

end Loops

section Cuts

variable {matched : UInt8 → Bool} {str before middle after : Bytes}

theorem allMatched_before (cut : Cut matched str before middle after) :
    AllMatched matched str 0 before.length :=
  fun _ _ upper => cut.getElem?_before upper

theorem allMatched_after (cut : Cut matched str before middle after) :
    AllMatched matched str (before.length + middle.length) str.length :=
  fun _ lower upper => cut.getElem?_after lower upper

theorem scanStart_of_cut (cut : Cut matched str before middle after)
    (bound : str.length < 2 ^ 63) : scanStart matched str = .ok before.length := by
  have length := cut.length_eq
  exact scanStart_eq (by omega) bound (allMatched_before cut)
    (Or.inr ⟨_, cut.getElem?_first, cut.first_kept⟩)

theorem scanEnd_of_cut (cut : Cut matched str before middle after)
    (bound : str.length < 2 ^ 63) :
    scanEnd matched str (str.length - 1) = .ok (before.length + middle.length - 1) := by
  have length := cut.length_eq
  have positive := cut.middle_length_pos
  have above := allMatched_after cut
  apply scanEnd_eq (by omega) (by omega) bound
  · intro index lower upper
    exact above index (by omega) (by omega)
  · exact Or.inr ⟨_, cut.getElem?_last, cut.last_kept⟩

theorem erase_front (first second : Bytes) :
    erase (first ++ second) 0 first.length = .ok second := by
  rw [erase, if_pos (Nat.zero_le _), List.take_zero, List.nil_append, Nat.zero_add,
    List.drop_left]

theorem eraseEnds_of_cut (cut : Cut matched str before middle after)
    (bound : str.length < 2 ^ 63) : eraseEnds matched str = .ok middle := by
  have length := cut.length_eq
  have positive := cut.middle_length_pos
  have front : erase str 0 before.length = .ok (middle ++ after) := by
    rw [cut.parts, List.append_assoc, erase_front]
  have tailLength : (middle ++ after).length = middle.length + after.length :=
    List.length_append
  have last := scanEnd_of_cut cut.tail (by omega)
  rw [List.length_nil, Nat.zero_add] at last
  have lastIndex : sizeType ((str.length : Int) - before.length - 1) =
      (middle ++ after).length - 1 :=
    sizeType_eq (by omega) (by omega)
  have position : sizeType ((middle.length - 1 : Nat) + 1) = middle.length :=
    sizeType_eq (by omega) (by omega)
  have count : sizeType ((str.length : Int) - before.length - (middle.length - 1 : Nat)) =
      after.length + 1 :=
    sizeType_eq (by omega) (by omega)
  rw [eraseEnds, scanStart_of_cut cut bound, ok_bind, front, ok_bind, lastIndex, last, ok_bind,
    position, count, erase, if_pos (by omega), List.take_left, List.drop_eq_nil_of_le (by omega),
    List.append_nil]

end Cuts

section Dropped

variable {matched : UInt8 → Bool} {str : Bytes}

theorem allMatched_of_forall (all : ∀ character ∈ str, matched character = true) :
    AllMatched matched str 0 str.length := by
  intro index _ upper
  exact ⟨str[index], List.getElem?_eq_getElem upper, all _ (List.getElem_mem upper)⟩

theorem scanStart_of_all (all : ∀ character ∈ str, matched character = true)
    (bound : str.length < 2 ^ 63) : scanStart matched str = .ok str.length :=
  scanStart_eq (Nat.le_refl _) bound (allMatched_of_forall all) (Or.inl rfl)

/-- The end index wraps to the largest size and is used. -/
theorem eraseEnds_of_all (all : ∀ character ∈ str, matched character = true)
    (bound : str.length < 2 ^ 63) :
    eraseEnds matched str = .error (.outOfString npos) := by
  have everything : erase str 0 str.length = .ok [] := by
    have front := erase_front str []
    rwa [List.append_nil] at front
  have last : sizeType ((str.length : Int) - str.length - 1) = npos := by
    rw [Int.sub_self]
    rfl
  rw [eraseEnds, scanStart_of_all all bound, ok_bind, everything, ok_bind, last,
    scanEnd_outside (by decide) (by decide), error_bind]

end Dropped

/-- Erasing up to the first other character drops the leading spaces; on
spaces only the position is the largest size, and everything is erased. -/
theorem erase_findFirstNotOf {str : Bytes} (bound : str.length < 2 ^ 63) :
    erase str 0 (findFirstNotOf str ' '.toUInt8) = .ok (str.dropWhile isSpace) := by
  have position : findFirstNotOf str ' '.toUInt8 =
      (str.findIdx? fun other => !isSpace other).getD npos :=
    rfl
  rw [erase, if_pos (Nat.zero_le _), List.take_zero, List.nil_append, Nat.zero_add, position,
    List.dropWhile_eq_drop_findIdx_not]
  cases found : str.findIdx? fun other => !isSpace other with
  | none =>
      have largest : str.length ≤ npos := by
        have value : npos = 2 ^ 64 - 1 := by decide
        omega
      rw [Option.getD_none, List.findIdx?_eq_none_iff_findIdx_eq.mp found,
        List.drop_eq_nil_of_le largest, List.drop_length]
  | some index =>
      rw [Option.getD_some, (List.findIdx?_eq_some_iff_findIdx_eq.mp found).2]

/-- `trim_1` is right on every string. -/
theorem trim1_eq (str : StdString) : trim1 str = .ok (trimmed isSpace str.bytes) := by
  have bound := str.length_lt
  by_cases kept : ∃ character ∈ str.bytes, isSpace character = false
  · obtain ⟨before, middle, after, cut⟩ := exists_cut kept
    have length := cut.length_eq
    have positive := cut.middle_length_pos
    have above := allMatched_after cut
    have trailing : scanTrailing str.bytes str.bytes.length =
        .ok (before.length + middle.length - 1) := by
      apply scanTrailing_eq (by omega)
      · intro index lower upper
        exact above index (by omega) upper
      · exact ⟨_, cut.getElem?_last, cut.last_kept⟩
    have count : sizeType (((before.length + middle.length - 1 : Nat) : Int) -
        before.length + 1) = middle.length :=
      sizeType_eq (by omega) (by omega)
    rw [trim1, scanStart_of_cut cut bound, ok_bind, trailing, ok_bind, count, substr,
      if_pos (by omega), cut.slice_eq, cut.trimmed_eq]
  · have all : ∀ character ∈ str.bytes, isSpace character = true := by
      simpa using kept
    rw [trim1, scanStart_of_all all bound, ok_bind,
      scanTrailing_of_all (allMatched_of_forall all), ok_bind, substr, if_pos (Nat.le_refl _),
      List.drop_length, List.take_nil, trimmed_of_all all]

/-- `trim_2` is right on every string. -/
theorem trim2_eq (str : StdString) : trim2 str = .ok (trimmed isSpace str.bytes) := by
  have bound := str.length_lt
  have shorter := (List.dropWhile_suffix isSpace (l := str.bytes)).length_le
  have reversedBound : (str.bytes.dropWhile isSpace).reverse.length < 2 ^ 63 := by
    rw [List.length_reverse]
    omega
  have again := erase_findFirstNotOf reversedBound
  rw [trim2, erase_findFirstNotOf bound, ok_bind]
  exact congrArg (fun erased => erased >>= fun str => .ok str.reverse) again

theorem trim3_of_cut {str : StdString} {before middle after : Bytes}
    (cut : Cut isSpace str.bytes before middle after) : trim3 str = .ok middle :=
  eraseEnds_of_cut cut str.length_lt

theorem trim_of_cut {str : StdString} {before middle after : Bytes}
    (cut : Cut isSpace str.bytes before middle after) : trim str = .ok middle := by
  have bound := str.length_lt
  have length := cut.length_eq
  have positive := cut.middle_length_pos
  have last : sizeType ((str.bytes.length : Int) - 1) = str.bytes.length - 1 :=
    sizeType_eq (by omega) (by omega)
  have count : sizeType (((before.length + middle.length - 1 : Nat) : Int) -
      before.length + 1) = middle.length :=
    sizeType_eq (by omega) (by omega)
  rw [trim, scanStart_of_cut cut bound, ok_bind, last, scanEnd_of_cut cut bound, ok_bind, count,
    stringView, if_pos (by omega), cut.slice_eq]

/-- All four functions stay within the string and return it without its
leading and trailing spaces. -/
structure TrimsAgree (str : StdString) : Prop where
  first : trim1 str = .ok (trimmed isSpace str.bytes)
  second : trim2 str = .ok (trimmed isSpace str.bytes)
  third : trim3 str = .ok (trimmed isSpace str.bytes)
  fourth : trim str = .ok (trimmed isSpace str.bytes)

/-- The functions agree exactly on the strings with a character other than
the space. -/
theorem trimsAgree_iff (str : StdString) :
    TrimsAgree str ↔ ∃ character ∈ str.bytes, character ≠ ' '.toUInt8 := by
  constructor
  · intro agree
    by_contra none
    have all : ∀ character ∈ str.bytes, isSpace character = true := by
      simpa [isSpace] using none
    have third := agree.third
    rw [trim3, eraseEnds_of_all all str.length_lt] at third
    cases third
  · rintro ⟨character, member, different⟩
    have kept : isSpace character = false := by simpa [isSpace] using different
    obtain ⟨before, middle, after, cut⟩ := exists_cut ⟨character, member, kept⟩
    exact
      { first := trim1_eq str
        second := trim2_eq str
        third := by rw [trim3_of_cut cut, cut.trimmed_eq]
        fourth := by rw [trim_of_cut cut, cut.trimmed_eq] }

/-- On the empty string `trim_3` and `trim` read at the largest size. -/
theorem trims_of_empty :
    trim3 ⟨[], by decide⟩ = .error (.outOfString npos) ∧
      trim ⟨[], by decide⟩ = .error (.outOfString npos) ∧
      ¬ TrimsAgree ⟨[], by decide⟩ := by
  have third : trim3 ⟨[], by decide⟩ = .error (.outOfString npos) := by decide
  refine ⟨third, by decide, fun agree => ?_⟩
  have returned := agree.third
  rw [third] at returned
  cases returned

end StringUtilities

end ExchangeConnectivity
