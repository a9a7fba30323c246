import ExchangeConnectivity.JsonTexts

/-!
# Least lengths of JSON texts

No text of a value is shorter than its strings, digits and punctuation, and a
text of just that length has no blanks and no escapes.  So the strings in it can
only be such as need no escape.
-/

namespace JsonTexts

open ByteStrings TextReaders

mutual

/-- The length of a text of the value without blanks, escapes and exponents. -/
def leastLength : Value → Nat
  | .null => 4
  | .boolean true => 4
  | .boolean false => 5
  | .number _ => 1
  | .string value => value.length + 2
  | .array elements => leastElements elements + 1
  | .object members => leastMembers members + 1

/-- Each element is followed by a comma or the closing bracket. -/
def leastElements : List Value → Nat
  | [] => 0
  | element :: elements => leastLength element + (leastElements elements + 1)

def leastMembers : List (Bytes × Value) → Nat
  | [] => 0
  | (name, value) :: members =>
      name.length + 2 + (leastLength value + (leastMembers members + 1) + 1)

end

def Unescaped (text : Bytes) : Prop :=
  ∀ byte ∈ text, isUnescaped byte = true

mutual

/-- The strings of the value need no escapes. -/
def Plain : Value → Prop
  | .string value => Unescaped value
  | .array elements => PlainElements elements
  | .object members => PlainMembers members
  | .null | .boolean _ | .number _ => True

def PlainElements : List Value → Prop
  | [] => True
  | element :: elements => Plain element ∧ PlainElements elements

def PlainMembers : List (Bytes × Value) → Prop
  | [] => True
  | (name, value) :: members => Unescaped name ∧ Plain value ∧ PlainMembers members

end

/-- There are at least so many bytes, and if there are no more then the
property holds. -/
def Spelled (least : Nat) (property : Prop) (count : Nat) : Prop :=
  least ≤ count ∧ (count = least → property)

section Spelled

variable {least more count later : Nat} {property other : Prop}

theorem spelled_of_lt (longer : least < count) : Spelled least property count :=
  ⟨Nat.le_of_lt longer, fun equal => absurd equal (Nat.ne_of_gt longer)⟩

theorem Spelled.add (spelled : Spelled least property count)
    (spelledLater : Spelled more other later) :
    Spelled (least + more) (property ∧ other) (count + later) := by
  obtain ⟨enough, tight⟩ := spelled
  obtain ⟨enoughLater, tightLater⟩ := spelledLater
  exact ⟨by omega, fun equal => ⟨tight (by omega), tightLater (by omega)⟩⟩

theorem Spelled.mono (spelled : Spelled least property count) (longer : count ≤ later)
    (implies : property → other) : Spelled least other later := by
  obtain ⟨enough, tight⟩ := spelled
  exact ⟨by omega, fun equal => implies (tight (by omega))⟩

/-- A mark before the text is one more byte. -/
theorem Spelled.after (spelled : Spelled least property count) :
    Spelled (least + 1) property (1 + count) := by
  obtain ⟨enough, tight⟩ := spelled
  exact ⟨by omega, fun equal => tight (by omega)⟩

end Spelled

/-- The bytes take at least as much text as they are, and more if one of them is
not written as it stands. -/
def SpelledText (extra : Nat) (text : Bytes) (count : Nat) : Prop :=
  Spelled (text.length + extra) (Unescaped text) count

theorem measured_codeUnit : Measured (fun _ count => count = 6) codeUnit := by
  have digit : Measured (fun _ count => count = 1) hexDigit :=
    (measured_symbol _).bind fun _ _ taken => measured_pure taken.2
  refine (measured_expect (ascii "\\u")).bind fun _ _ mark => ?_
  refine digit.bind fun _ _ first => digit.bind fun _ _ second => ?_
  refine digit.bind fun _ _ third => digit.bind fun _ _ fourth => measured_pure ?_
  rw [mark, first, second, third, fourth]
  rfl

theorem measured_surrogatePair : Measured (fun _ count => 6 ≤ count) surrogatePair := by
  refine measured_codeUnit.bind fun _ _ high => (measured_guard _).bind fun _ _ _ => ?_
  refine measured_codeUnit.bind fun _ _ _ => (measured_guard _).bind fun _ _ _ => ?_
  exact measured_pure (by omega)

theorem utf8Bytes_length_le (codePoint : Nat) : (utf8Bytes codePoint).length ≤ 4 := by
  unfold utf8Bytes
  split_ifs <;> simp

theorem measured_character : Measured (SpelledText 0) character := by
  apply Measured.orElse
  · refine (measured_symbol isUnescaped).bind fun byte count taken => measured_pure ?_
    rw [SpelledText, taken.2]
    exact ⟨le_rfl, fun _ => List.forall_mem_singleton.mpr taken.1⟩
  apply Measured.orElse
  · refine (measured_expect (ascii "\\")).bind fun _ _ backslash => ?_
    refine (measured_symbol isEscape).bind fun mark _ taken => measured_pure ?_
    have atMost : (escapes.lookup mark).toList.length ≤ 1 := Option.length_toList_le
    have two : (ascii "\\").length = 1 := rfl
    exact spelled_of_lt (by omega)
  · have unit : Measured (fun _ count => 6 ≤ count) codeUnit :=
      measured_codeUnit.mono fun _ _ six => Nat.le_of_eq six.symm
    refine (measured_surrogatePair.orElse unit).bind fun codePoint _ six => measured_pure ?_
    have atMost := utf8Bytes_length_le codePoint
    exact spelled_of_lt (by omega)

theorem measured_characters (fuel : Nat) : Measured (SpelledText 1) (characters fuel) := by
  induction fuel with
  | zero => exact measured_failure
  | succ fuel ih =>
      apply Measured.orElse
      · refine (measured_expect (ascii "\"")).bind fun _ _ quote => measured_pure ?_
        rw [quote]
        exact ⟨le_rfl, fun _ => List.forall_mem_nil _⟩
      · refine measured_character.bind fun first _ spelled => ?_
        refine ih.bind fun others _ spelledOthers => measured_pure ?_
        have both := spelled.add spelledOthers
        rw [SpelledText, List.length_append]
        exact both.mono (by omega) fun unescaped => List.forall_mem_append.mpr unescaped

theorem measured_string : Measured (SpelledText 2) string := by
  refine (measured_expect (ascii "\"")).bind fun _ _ quote text value rest read => ?_
  obtain ⟨taken, splits, spelled⟩ := measured_characters (text.length + 1) text value rest read
  rw [quote]
  exact ⟨taken, splits, spelled.after⟩

theorem measured_digits : Measured (fun _ count => 1 ≤ count) digits := by
  refine (measured_many _).bind fun bytes _ taken => (measured_guard _).bind fun _ _ some => ?_
  have nonempty := List.length_pos_of_ne_nil some.1
  exact measured_pure (by omega)

theorem measured_number : Measured (fun _ count => 1 ≤ count) number := by
  have read : ∀ text : Bytes, Measured (fun _ _ => True) (expect text) := fun text =>
    (measured_expect text).mono fun _ _ _ => trivial
  have minus : Measured (fun _ _ => True) minus :=
    ((read _).bind fun _ _ _ => measured_pure trivial).orElse (measured_pure trivial)
  have fraction : Measured (fun _ _ => True) fraction :=
    (read _).bind fun _ _ _ => measured_digits.mono fun _ _ _ => trivial
  have sign : Measured (fun _ _ => True) exponentSign :=
    ((read _).bind fun _ _ _ => measured_pure trivial).orElse
      (((read _).bind fun _ _ _ => measured_pure trivial).orElse (measured_pure trivial))
  have exponent : Measured (fun _ _ => True) exponent :=
    ((read _).orElse (read _)).bind fun _ _ _ => sign.bind fun _ _ _ =>
      (measured_digits.mono fun _ _ _ => trivial).bind fun _ _ _ => measured_pure trivial
  refine minus.bind fun _ _ _ => measured_digits.bind fun _ _ one => ?_
  refine (measured_guard _).bind fun _ _ _ => ?_
  refine (fraction.orElse (measured_pure trivial)).bind fun _ _ _ => ?_
  refine (exponent.orElse (measured_pure trivial)).bind fun _ _ _ => measured_pure ?_
  omega

def SpelledValue (value : Value) (count : Nat) : Prop :=
  Spelled (leastLength value) (Plain value) count

def SpelledElements (values : List Value) (count : Nat) : Prop :=
  Spelled (leastElements values) (PlainElements values) count

def SpelledMembers (members : List (Bytes × Value)) (count : Nat) : Prop :=
  Spelled (leastMembers members) (PlainMembers members) count

theorem spelledElements_nil (count : Nat) : SpelledElements [] count :=
  ⟨Nat.zero_le count, fun _ => trivial⟩

theorem SpelledValue.cons {first : Value} {others : List Value} {count later : Nat}
    (spelled : SpelledValue first count) (spelledOthers : SpelledElements others later) :
    SpelledElements (first :: others) (count + (1 + later)) :=
  spelled.add spelledOthers.after

theorem spelledMembers_nil (count : Nat) : SpelledMembers [] count :=
  ⟨Nat.zero_le count, fun _ => trivial⟩

theorem SpelledText.cons {name : Bytes} {first : Value} {others : List (Bytes × Value)}
    {nameCount count later : Nat} (spelledName : SpelledText 2 name nameCount)
    (spelled : SpelledValue first count) (spelledOthers : SpelledMembers others later) :
    SpelledMembers ((name, first) :: others) (nameCount + (1 + (count + (1 + later)))) :=
  spelledName.add (spelled.add spelledOthers.after).after

theorem measured_blanks : Measured (fun _ _ => True) blanks :=
  (measured_many _).bind fun _ _ _ => measured_pure trivial

theorem measured_literal {name : String} {value : Value}
    (spelled : SpelledValue value (ascii name).length) :
    Measured SpelledValue (literal name value) :=
  (measured_expect (ascii name)).bind fun _ _ taken => measured_pure (by rw [taken]; exact spelled)

theorem measured_bareValue {elements : ByteReader (List Value)}
    {members : ByteReader (List (Bytes × Value))} (readElements : Measured SpelledElements elements)
    (readMembers : Measured SpelledMembers members) :
    Measured SpelledValue (bareValue elements members) := by
  apply Measured.orElse
  · exact measured_literal ⟨le_rfl, fun _ => trivial⟩
  apply Measured.orElse
  · exact measured_literal ⟨le_rfl, fun _ => trivial⟩
  apply Measured.orElse
  · exact measured_literal ⟨le_rfl, fun _ => trivial⟩
  apply Measured.orElse
  · exact measured_string.bind fun _ _ spelled => measured_pure spelled
  apply Measured.orElse
  · refine (measured_expect (ascii "[")).bind fun _ _ bracket => ?_
    refine readElements.bind fun values _ spelled => measured_pure ?_
    rw [bracket]
    exact spelled.after
  apply Measured.orElse
  · refine (measured_expect (ascii "\x7b")).bind fun _ _ brace => ?_
    refine readMembers.bind fun fields _ spelled => measured_pure ?_
    rw [brace]
    exact spelled.after
  · exact measured_number.bind fun _ _ one => measured_pure ⟨one, fun _ => trivial⟩

/-- What is read of a text by the readers of values. -/
structure ValuesMeasured (fuel : Nat) : Prop where
  element : Measured SpelledValue (element fuel)
  elements : Measured SpelledElements (elements fuel)
  moreElements : Measured SpelledElements (moreElements fuel)
  members : Measured SpelledMembers (members fuel)
  moreMembers : Measured SpelledMembers (moreMembers fuel)

theorem valuesMeasured (fuel : Nat) : ValuesMeasured fuel := by
  induction fuel with
  | zero =>
      exact ⟨measured_failure, measured_failure, measured_failure, measured_failure,
        measured_failure⟩
  | succ fuel ih =>
      constructor
      case element =>
        refine measured_blanks.bind fun _ _ _ => ?_
        refine (measured_bareValue ih.elements ih.members).bind fun _ _ spelled => ?_
        refine measured_blanks.bind fun _ _ _ => measured_pure ?_
        exact spelled.mono (by omega) id
      case elements =>
        refine Measured.orElse ?_ ih.moreElements
        refine measured_blanks.bind fun _ _ _ => ?_
        refine (measured_expect (ascii "]")).bind fun _ _ _ => ?_
        exact measured_pure (spelledElements_nil _)
      case moreElements =>
        refine ih.element.bind fun first _ spelled => Measured.orElse ?_ ?_
        · refine (measured_expect (ascii "]")).bind fun _ _ bracket => measured_pure ?_
          rw [bracket]
          exact spelled.cons (spelledElements_nil 0)
        · refine (measured_expect (ascii ",")).bind fun _ _ comma => ?_
          refine ih.moreElements.bind fun others _ spelledOthers => measured_pure ?_
          rw [comma]
          exact spelled.cons spelledOthers
      case members =>
        refine Measured.orElse ?_ ih.moreMembers
        refine measured_blanks.bind fun _ _ _ => ?_
        refine (measured_expect (ascii "\x7d")).bind fun _ _ _ => ?_
        exact measured_pure (spelledMembers_nil _)
      case moreMembers =>
        refine measured_blanks.bind fun _ _ _ => measured_string.bind fun name _ spelledName => ?_
        refine measured_blanks.bind fun _ _ _ => ?_
        refine (measured_expect (ascii ":")).bind fun _ _ colon => ?_
        refine ih.element.bind fun first _ spelled => Measured.orElse ?_ ?_
        · refine (measured_expect (ascii "\x7d")).bind fun _ _ brace => measured_pure ?_
          have one : (ascii ":").length = 1 ∧ (ascii "\x7d").length = 1 := ⟨rfl, rfl⟩
          exact (spelledName.cons spelled (spelledMembers_nil 0)).mono (by omega) id
        · refine (measured_expect (ascii ",")).bind fun _ _ comma => ?_
          refine ih.moreMembers.bind fun others _ spelledOthers => measured_pure ?_
          have one : (ascii ":").length = 1 ∧ (ascii ",").length = 1 := ⟨rfl, rfl⟩
          exact (spelledName.cons spelled spelledOthers).mono (by omega) id

/-- A text of a value is at least as long as the least one, and if it is no
longer then no string in it needs an escape. -/
theorem spelled_of_decode {text : Bytes} {value : Value} (decoded : decode text = some value) :
    SpelledValue value text.length :=
  (valuesMeasured _).element.of_readAll decoded

end JsonTexts
