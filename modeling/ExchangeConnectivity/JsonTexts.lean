import ExchangeConnectivity.CanonicalNumerals
import ExchangeConnectivity.PercentEncoding
import ExchangeConnectivity.TextReaders

/-!
# JSON texts

The grammar of RFC 8259 as a reader of bytes that yields the value a text
denotes.  Strings are decoded to UTF-8, numbers to rationals, and objects keep
their members in the order of the text.
-/

namespace JsonTexts

open ByteStrings DecimalNumerals PercentEncoding TextReaders

inductive Value
  | null
  | boolean (value : Bool)
  | number (value : ℚ)
  | string (value : Bytes)
  | array (elements : List Value)
  | object (members : List (Bytes × Value))

abbrev ByteReader :=
  Reader UInt8

/-- The encoding of a code point.  A surrogate, which has none, is encoded
like its neighbours. -/
def utf8Bytes (codePoint : Nat) : Bytes :=
  if codePoint < 0x80 then [UInt8.ofNat codePoint]
  else if codePoint < 0x800 then
    [UInt8.ofNat (0xC0 + codePoint / 0x40), UInt8.ofNat (0x80 + codePoint % 0x40)]
  else if codePoint < 0x10000 then
    [UInt8.ofNat (0xE0 + codePoint / 0x1000), UInt8.ofNat (0x80 + codePoint / 0x40 % 0x40),
      UInt8.ofNat (0x80 + codePoint % 0x40)]
  else
    [UInt8.ofNat (0xF0 + codePoint / 0x40000), UInt8.ofNat (0x80 + codePoint / 0x1000 % 0x40),
      UInt8.ofNat (0x80 + codePoint / 0x40 % 0x40), UInt8.ofNat (0x80 + codePoint % 0x40)]

def isHighSurrogate (codePoint : Nat) : Bool :=
  0xD800 ≤ codePoint && codePoint < 0xDC00

def isLowSurrogate (codePoint : Nat) : Bool :=
  0xDC00 ≤ codePoint && codePoint < 0xE000

/-- The bytes are the encodings of Unicode characters. -/
def IsUtf8 (bytes : Bytes) : Prop :=
  ∃ codePoints : List Nat, bytes = codePoints.flatMap utf8Bytes ∧
    ∀ codePoint ∈ codePoints, codePoint < 0x110000 ∧ isHighSurrogate codePoint = false ∧
      isLowSurrogate codePoint = false

def SevenBit (bytes : Bytes) : Prop :=
  ∀ byte ∈ bytes, byte.toNat < 0x80

instance (bytes : Bytes) : Decidable (SevenBit bytes) :=
  List.decidableBAll (fun byte : UInt8 => byte.toNat < 0x80) bytes

theorem SevenBit.append {first second : Bytes} (sevenFirst : SevenBit first)
    (sevenSecond : SevenBit second) : SevenBit (first ++ second) :=
  List.forall_mem_append.mpr ⟨sevenFirst, sevenSecond⟩

/-- Seven-bit text is UTF-8. -/
theorem SevenBit.isUtf8 {bytes : Bytes} (sevenBit : SevenBit bytes) : IsUtf8 bytes := by
  refine ⟨bytes.map UInt8.toNat, ?_, fun codePoint member => ?_⟩
  · have encoded : ∀ byte ∈ bytes, utf8Bytes byte.toNat = [byte] := by
      intro byte member
      rw [utf8Bytes, if_pos (sevenBit byte member), UInt8.ofNat_toNat]
    rw [List.flatMap_map, List.flatMap_congr encoded, List.flatMap_singleton']
  · obtain ⟨byte, inBytes, rfl⟩ := List.mem_map.mp member
    have small := sevenBit byte inBytes
    simp only [isHighSurrogate, isLowSurrogate, Bool.and_eq_false_iff, decide_eq_false_iff_not]
    omega

/-- An encoding is one seven-bit byte, or has none. -/
theorem utf8Bytes_cases {codePoint : Nat} (range : codePoint < 0x110000) :
    codePoint < 0x80 ∧ utf8Bytes codePoint = [UInt8.ofNat codePoint] ∨
      ∀ byte ∈ utf8Bytes codePoint, ¬ byte.toNat < 0x80 := by
  by_cases small : codePoint < 0x80
  · exact .inl ⟨small, if_pos small⟩
  · right
    rw [utf8Bytes, if_neg small]
    split_ifs <;>
      simp only [List.mem_cons, List.not_mem_nil, or_false, forall_eq_or_imp, forall_eq,
        UInt8.toNat_ofNat'] <;>
      omega

namespace IsUtf8

theorem nil : IsUtf8 [] :=
  ⟨[], rfl, List.forall_mem_nil _⟩

theorem append {first second : Bytes} (isFirst : IsUtf8 first) (isSecond : IsUtf8 second) :
    IsUtf8 (first ++ second) := by
  obtain ⟨codePoints, rfl, valid⟩ := isFirst
  obtain ⟨others, rfl, othersValid⟩ := isSecond
  exact ⟨codePoints ++ others, List.flatMap_append.symm, List.forall_mem_append.mpr
    ⟨valid, othersValid⟩⟩

/-- A character is one seven-bit byte, or has none. -/
def IsCharacter (bytes : Bytes) : Prop :=
  IsUtf8 bytes ∧ ((∃ byte, bytes = [byte] ∧ byte.toNat < 0x80) ∨
    bytes ≠ [] ∧ ∀ byte ∈ bytes, ¬ byte.toNat < 0x80)

theorem isCharacter_utf8Bytes {codePoint : Nat} (valid : codePoint < 0x110000 ∧
    isHighSurrogate codePoint = false ∧ isLowSurrogate codePoint = false) :
    IsCharacter (utf8Bytes codePoint) := by
  refine ⟨⟨[codePoint], by simp, List.forall_mem_singleton.mpr valid⟩, ?_⟩
  rcases utf8Bytes_cases valid.1 with ⟨small, single⟩ | high
  · refine .inl ⟨_, single, ?_⟩
    rw [UInt8.toNat_ofNat']
    omega
  · refine .inr ⟨?_, high⟩
    rw [utf8Bytes]
    split_ifs <;> exact List.cons_ne_nil _ _

/-- Induction over the characters of a text, from the front. -/
theorem induction (holds : Bytes → Prop) (nil : holds [])
    (cons : ∀ character rest, IsCharacter character → holds rest → holds (character ++ rest))
    {text : Bytes} (isUtf8 : IsUtf8 text) : holds text := by
  obtain ⟨codePoints, rfl, valid⟩ := isUtf8
  induction codePoints with
  | nil => exact nil
  | cons codePoint codePoints ih =>
      obtain ⟨first, others⟩ := List.forall_mem_cons.mp valid
      exact cons _ _ (isCharacter_utf8Bytes first) (ih others)

/-- Seven-bit text in front belongs to no other character. -/
theorem of_append_left {before after : Bytes} (sevenBit : SevenBit before)
    (isUtf8 : IsUtf8 (before ++ after)) : IsUtf8 after := by
  induction before with
  | nil => exact isUtf8
  | cons byte before ih =>
      obtain ⟨small, others⟩ := List.forall_mem_cons.mp sevenBit
      apply ih others
      obtain ⟨codePoints, whole, valid⟩ := isUtf8
      cases codePoints with
      | nil => cases whole
      | cons codePoint codePoints =>
          obtain ⟨first, rest⟩ := List.forall_mem_cons.mp valid
          obtain ⟨-, ⟨other, single, -⟩ | ⟨nonempty, high⟩⟩ := isCharacter_utf8Bytes first
          · rw [List.flatMap_cons, single] at whole
            exact ⟨codePoints, (List.cons.inj whole).2, rest⟩
          · obtain ⟨head, tail, shape⟩ := List.exists_cons_of_ne_nil nonempty
            rw [List.flatMap_cons, shape] at whole
            rw [shape, ← (List.cons.inj whole).1] at high
            exact absurd small (high byte List.mem_cons_self)

/-- Nor does seven-bit text at the end. -/
theorem of_append_right {before after : Bytes} (sevenBit : SevenBit after)
    (isUtf8 : IsUtf8 (before ++ after)) : IsUtf8 before := by
  refine induction (fun text => ∀ before, text = before ++ after → IsUtf8 before)
    ?_ ?_ isUtf8 before rfl
  · intro before whole
    rw [(List.append_eq_nil_iff.mp whole.symm).1]
    exact nil
  · intro character rest isCharacter ih before whole
    rcases List.append_eq_append_iff.mp whole with ⟨middle, rfl, restEq⟩ | ⟨middle, rfl, afterEq⟩
    · exact isCharacter.1.append (ih middle restEq)
    · have sevenMiddle : SevenBit middle := (List.forall_mem_append.mp (afterEq ▸ sevenBit)).1
      cases middle with
      | nil =>
          rw [List.append_nil] at isCharacter
          exact isCharacter.1
      | cons byte middle =>
          obtain ⟨-, ⟨other, single, -⟩ | ⟨-, high⟩⟩ := isCharacter
          · cases before with
            | nil => exact nil
            | cons first before => simp at single
          · exact absurd (sevenMiddle byte List.mem_cons_self) (high byte (by simp))

/-- A change of seven-bit bytes into seven-bit bytes. -/
structure KeepsHighBytes (change : UInt8 → UInt8) : Prop where
  small_iff : ∀ byte, (change byte).toNat < 0x80 ↔ byte.toNat < 0x80
  high : ∀ byte, ¬ byte.toNat < 0x80 → change byte = byte

section Map

variable {change : UInt8 → UInt8} {text : Bytes}

theorem map_eq_of_high (keeps : KeepsHighBytes change)
    (highBytes : ∀ byte ∈ text, ¬ byte.toNat < 0x80) : text.map change = text :=
  (List.map_congr_left fun byte member => keeps.high byte (highBytes byte member)).trans
    (List.map_id text)

theorem of_map_isCharacter (keeps : KeepsHighBytes change)
    (isCharacter : IsCharacter (text.map change)) : IsUtf8 text := by
  obtain ⟨isUtf8, ⟨byte, single, seven⟩ | ⟨-, highBytes⟩⟩ := isCharacter
  · obtain ⟨original, rfl, rfl⟩ := List.map_eq_singleton_iff.mp single
    exact SevenBit.isUtf8 (List.forall_mem_singleton.mpr ((keeps.small_iff original).mp seven))
  · have highText : ∀ byte ∈ text, ¬ byte.toNat < 0x80 := fun byte member =>
      mt (keeps.small_iff byte).mpr (highBytes _ (List.mem_map_of_mem member))
    exact map_eq_of_high keeps highText ▸ isUtf8

/-- Neither does it matter which seven-bit bytes there are. -/
theorem map_iff (keeps : KeepsHighBytes change) : IsUtf8 (text.map change) ↔ IsUtf8 text := by
  constructor
  · intro isUtf8
    refine induction (fun mapped => ∀ text : Bytes, mapped = text.map change → IsUtf8 text)
      ?_ ?_ isUtf8 text rfl
    · intro text whole
      rw [List.map_eq_nil_iff.mp whole.symm]
      exact nil
    · intro character rest isCharacter ih text whole
      obtain ⟨first, second, rfl, rfl, rfl⟩ := List.map_eq_append_iff.mp whole.symm
      exact (of_map_isCharacter keeps isCharacter).append (ih second rfl)
  · intro isUtf8
    refine induction (fun text => IsUtf8 (text.map change)) nil ?_ isUtf8
    rintro character rest ⟨isCharacter, single | ⟨-, highBytes⟩⟩ mapped
    · obtain ⟨byte, rfl, seven⟩ := single
      have sevenBit : SevenBit [change byte] :=
        List.forall_mem_singleton.mpr ((keeps.small_iff byte).mpr seven)
      exact sevenBit.isUtf8.append mapped
    · rw [List.map_append, map_eq_of_high keeps highBytes]
      exact isCharacter.append mapped

end Map

end IsUtf8

/-- `unescaped = %x20-21 / %x23-5B / %x5D-10FFFF`. -/
def isUnescaped (byte : UInt8) : Bool :=
  0x20 ≤ byte.toNat && byte ≠ '"'.toUInt8 && byte ≠ '\\'.toUInt8

/-- The characters that may follow a backslash and what they stand for. -/
def escapes : List (UInt8 × UInt8) :=
  [('"'.toUInt8, '"'.toUInt8), ('\\'.toUInt8, '\\'.toUInt8), ('/'.toUInt8, '/'.toUInt8),
    ('b'.toUInt8, 0x08), ('f'.toUInt8, 0x0C), ('n'.toUInt8, 0x0A), ('r'.toUInt8, 0x0D),
    ('t'.toUInt8, 0x09)]

def isEscape (mark : UInt8) : Bool :=
  (escapes.lookup mark).isSome

def hexDigit : ByteReader Nat := do
  let byte ← symbol fun byte => (hexDigitValue byte).isSome
  return (hexDigitValue byte).getD 0

/-- `\u` and four hexadecimal digits. -/
def codeUnit : ByteReader Nat := do
  expect (ascii "\\u")
  let first ← hexDigit
  let second ← hexDigit
  let third ← hexDigit
  let fourth ← hexDigit
  return ((first * 16 + second) * 16 + third) * 16 + fourth

/-- Two code units that form a surrogate pair. -/
def surrogatePair : ByteReader Nat := do
  let high ← codeUnit
  guard (isHighSurrogate high)
  let low ← codeUnit
  guard (isLowSurrogate low)
  return 0x10000 + (high - 0xD800) * 0x400 + (low - 0xDC00)

def character : ByteReader Bytes :=
  (do
    let byte ← symbol isUnescaped
    return [byte]) <|>
  (do
    expect (ascii "\\")
    let mark ← symbol isEscape
    return (escapes.lookup mark).toList) <|>
  (do
    let codePoint ← surrogatePair <|> codeUnit
    return utf8Bytes codePoint)

/-- The characters up to a quotation mark, at most as many as the fuel. -/
def characters : Nat → ByteReader Bytes
  | 0 => failure
  | fuel + 1 =>
      (do
        expect (ascii "\"")
        return []) <|>
      (do
        let first ← character
        let others ← characters fuel
        return first ++ others)

def string : ByteReader Bytes := do
  expect (ascii "\"")
  fun text => characters (text.length + 1) text

def digits : ByteReader (List Digit) := do
  let bytes ← many fun byte => IsDigitByte byte
  guard (bytes ≠ [])
  return bytes.map fun byte => Fin.ofNat 10 (byte.toNat - 48)

def fraction : ByteReader (List Digit) := do
  expect (ascii ".")
  digits

/-- A sign, present or not; a minus sign is `true`. -/
def exponentSign : ByteReader Bool :=
  (do
    expect (ascii "-")
    return true) <|>
  (do
    expect (ascii "+")
    return false) <|>
  pure false

def exponent : ByteReader Int := do
  expect (ascii "e") <|> expect (ascii "E")
  let negative ← exponentSign
  let magnitude ← digits
  return if negative then -digitsValue magnitude else digitsValue magnitude

/-- Whether a minus sign is read. -/
def minus : ByteReader Bool :=
  (do
    expect (ascii "-")
    return true) <|>
  pure false

/-- `number = [ minus ] int [ frac ] [ exp ]`. -/
def number : ByteReader ℚ := do
  let negative ← minus
  let integer ← digits
  guard (integer.head? = some 0 → integer = [0])
  let places ← fraction <|> pure []
  let power ← exponent <|> pure 0
  let magnitude : ℚ := digitsValue integer + digitsValue places / 10 ^ places.length
  return (if negative then -magnitude else magnitude) * 10 ^ power

def blankBytes : Bytes :=
  [0x20, 0x09, 0x0A, 0x0D]

def isBlank (byte : UInt8) : Bool :=
  blankBytes.contains byte

def blanks : ByteReader Unit := do
  let _ ← many isBlank
  return ()

def literal (name : String) (value : Value) : ByteReader Value := do
  expect (ascii name)
  return value

/-- A value, given readers of what follows the opening bracket of an array and
the opening brace of an object. -/
def bareValue (elements : ByteReader (List Value))
    (members : ByteReader (List (Bytes × Value))) : ByteReader Value :=
  literal "null" .null <|> literal "true" (.boolean true) <|>
  literal "false" (.boolean false) <|>
  (do
    let value ← string
    return .string value) <|>
  (do
    expect (ascii "[")
    let values ← elements
    return .array values) <|>
  (do
    expect (ascii "\x7b")
    let fields ← members
    return .object fields) <|>
  (do
    let value ← number
    return .number value)

mutual

/-- A value with the blanks around it. -/
def element : Nat → ByteReader Value
  | 0 => failure
  | fuel + 1 => do
      blanks
      let value ← bareValue (elements fuel) (members fuel)
      blanks
      return value

def elements : Nat → ByteReader (List Value)
  | 0 => failure
  | fuel + 1 =>
      (do
        blanks
        expect (ascii "]")
        return []) <|>
      moreElements fuel

def moreElements : Nat → ByteReader (List Value)
  | 0 => failure
  | fuel + 1 => do
      let first ← element fuel
      (do
        expect (ascii "]")
        return [first]) <|>
      (do
        expect (ascii ",")
        let others ← moreElements fuel
        return first :: others)

def members : Nat → ByteReader (List (Bytes × Value))
  | 0 => failure
  | fuel + 1 =>
      (do
        blanks
        expect (ascii "\x7d")
        return []) <|>
      moreMembers fuel

def moreMembers : Nat → ByteReader (List (Bytes × Value))
  | 0 => failure
  | fuel + 1 => do
      blanks
      let name ← string
      blanks
      expect (ascii ":")
      let first ← element fuel
      (do
        expect (ascii "\x7d")
        return [(name, first)]) <|>
      (do
        expect (ascii ",")
        let others ← moreMembers fuel
        return (name, first) :: others)

end

/-- The value of a text.  Of three nested calls at least one reads a byte, which
bounds the fuel. -/
def decode (text : Bytes) : Option Value :=
  readAll (element (3 * text.length + 3)) text

/-- The bytes are a JSON text of the value. -/
structure IsJsonText (text : Bytes) (value : Value) : Prop where
  utf8 : IsUtf8 text
  decodes : decode text = some value

/-- A text as a string without escapes. -/
def quoted (text : Bytes) : Bytes :=
  '"'.toUInt8 :: (text ++ ['"'.toUInt8])

/-- The bytes are read as a string character of one byte. -/
def Spells (spelling : Bytes) (byte : UInt8) : Prop :=
  ∀ rest, Reads character (spelling ++ rest) [byte] rest

theorem spells_unescaped {byte : UInt8} (unescaped : isUnescaped byte = true) :
    Spells [byte] byte := by
  intro rest
  apply Reads.orElse
  apply (reads_symbol unescaped rest).bind
  exact reads_pure [byte] rest

theorem spells_escape {mark byte : UInt8} (escape : escapes.lookup mark = some byte) :
    Spells ['\\'.toUInt8, mark] byte := by
  intro rest
  have fails : symbol isUnescaped ('\\'.toUInt8 :: mark :: rest) = none := rfl
  have known : isEscape mark = true := by rw [isEscape, escape]; rfl
  have decoded : [byte] = (escapes.lookup mark).toList := by rw [escape]; rfl
  apply Reads.orElse_of_fails (bind_fails _ fails)
  apply Reads.orElse
  apply (reads_expect (ascii "\\") (mark :: rest)).bind
  rw [decoded]
  apply Reads.bind
  · exact reads_symbol known rest
  · exact reads_pure _ rest

theorem character_quote (rest : Bytes) : character ('"'.toUInt8 :: rest) = none :=
  rfl

theorem Spells.ne_nil {spelling : Bytes} {byte : UInt8} (spells : Spells spelling byte) :
    spelling ≠ [] := by
  rintro rfl
  cases spells []

theorem Spells.expect_quote {spelling : Bytes} {byte : UInt8} (spells : Spells spelling byte)
    (rest : Bytes) : expect (ascii "\"") (spelling ++ rest) = none := by
  obtain ⟨first, others, rfl⟩ := List.exists_cons_of_ne_nil spells.ne_nil
  have different : '"'.toUInt8 ≠ first := by
    rintro rfl
    have read := spells rest
    rw [Reads, List.cons_append, character_quote] at read
    cases read
  exact expect_fails different [] (others ++ rest)

section Strings

variable {spell : UInt8 → Bytes} {text : Bytes}

theorem reads_characters (spelled : ∀ byte ∈ text, Spells (spell byte) byte) (rest : Bytes)
    {fuel : Nat} (enough : text.length < fuel) :
    Reads (characters fuel) (text.flatMap spell ++ '"'.toUInt8 :: rest) text rest := by
  induction text generalizing fuel with
  | nil =>
      obtain ⟨fuel, rfl⟩ := Nat.exists_eq_add_of_lt enough
      apply Reads.orElse
      apply (reads_expect (ascii "\"") rest).bind
      exact reads_pure [] rest
  | cons byte text ih =>
      obtain ⟨fuel, rfl⟩ : ∃ smaller, fuel = smaller + 1 := ⟨fuel - 1, by omega⟩
      have first := spelled byte List.mem_cons_self
      have shorter : text.length < fuel := by simpa using enough
      have others := ih (fun member inText => spelled member (List.mem_cons_of_mem _ inText))
        shorter
      rw [List.flatMap_cons, List.append_assoc]
      apply Reads.orElse_of_fails (bind_fails _ (first.expect_quote _))
      exact (first _).bind (others.bind (reads_pure _ _))

theorem length_le_of_spelled (spelled : ∀ byte ∈ text, Spells (spell byte) byte) :
    text.length ≤ (text.flatMap spell).length := by
  induction text with
  | nil => exact Nat.zero_le _
  | cons byte text ih =>
      have nonempty := List.length_pos_of_ne_nil (spelled byte List.mem_cons_self).ne_nil
      have others := ih fun member inText => spelled member (List.mem_cons_of_mem _ inText)
      simp only [List.flatMap_cons, List.length_append, List.length_cons]
      omega

/-- A string is read back from the spellings of its bytes. -/
theorem reads_string (spelled : ∀ byte ∈ text, Spells (spell byte) byte) (rest : Bytes) :
    Reads string (quoted (text.flatMap spell) ++ rest) text rest := by
  have shape : quoted (text.flatMap spell) ++ rest =
      ascii "\"" ++ (text.flatMap spell ++ '"'.toUInt8 :: rest) := by
    simp [quoted, ascii]
  have bound := length_le_of_spelled spelled
  rw [shape]
  apply (reads_expect (ascii "\"") _).bind
  apply reads_characters spelled
  simp only [List.length_append, List.length_cons]
  omega

theorem reads_string_unescaped (unescaped : ∀ byte ∈ text, isUnescaped byte = true)
    (rest : Bytes) : Reads string (quoted text ++ rest) text rest := by
  have spelled : ∀ byte ∈ text, Spells ((fun byte => [byte]) byte) byte :=
    fun byte member => spells_unescaped (unescaped byte member)
  have read := reads_string spelled rest
  rwa [List.flatMap_singleton'] at read

end Strings

/-- The text does not go on with more of a number. -/
def EndsNumber (rest : Bytes) : Prop :=
  ∀ next ∈ rest.head?, ¬ IsDigitByte next ∧ next ∉ ascii ".eE"

theorem reads_digits {number : List Digit} (nonempty : number ≠ []) {rest : Bytes}
    (ends : EndsNumber rest) : Reads digits (digitBytes number ++ rest) number rest := by
  have pass : ∀ byte ∈ digitBytes number, decide (IsDigitByte byte) = true := fun byte member =>
    decide_eq_true (isDigitByte_of_mem_digitBytes member)
  have stops : ∀ next ∈ rest.head?, decide (IsDigitByte next) = false := fun next first =>
    decide_eq_false (ends next first).1
  have decoded : (digitBytes number).map (fun byte => Fin.ofNat 10 (byte.toNat - 48)) =
      number := by
    simp [digitBytes, Function.comp_def]
  apply (reads_many pass stops).bind
  apply (reads_guard (by simpa [digitBytes] using nonempty) rest).bind
  unfold Reads
  rw [decoded]
  rfl

theorem expect_fails_of_ends {mark : UInt8} (member : mark ∈ ascii ".eE") {rest : Bytes}
    (ends : EndsNumber rest) : expect [mark] rest = none := by
  cases rest with
  | nil => rfl
  | cons next rest =>
      apply expect_fails
      rintro rfl
      exact (ends mark rfl).2 member

theorem fraction_fails {rest : Bytes} (ends : EndsNumber rest) : fraction rest = none :=
  bind_fails _ (expect_fails_of_ends (by decide) ends)

theorem exponent_fails {rest : Bytes} (ends : EndsNumber rest) : exponent rest = none := by
  have lower : expect (ascii "e") rest = none := expect_fails_of_ends (by decide) ends
  have upper : expect (ascii "E") rest = none := expect_fails_of_ends (by decide) ends
  apply bind_fails
  rw [orElse_run, lower, upper]
  rfl

theorem minus_not_digit (digit : Digit) : '-'.toUInt8 ≠ digitByte digit := by
  revert digit
  decide

theorem reads_minus (value : Int) (rest : Bytes) :
    Reads minus (signedBytes value ++ rest) (decide (value < 0))
      (decimalBytes value.natAbs ++ rest) := by
  by_cases negative : value < 0
  · rw [signedBytes, if_pos negative, decide_eq_true negative, List.append_assoc]
    apply Reads.orElse
    apply (reads_expect (ascii "-") _).bind
    exact reads_pure true _
  · rw [signedBytes, if_neg negative, decide_eq_false negative, List.nil_append]
    obtain ⟨digit, digits, shape⟩ := List.exists_cons_of_ne_nil (decimalDigits_ne_nil value.natAbs)
    have fails : expect (ascii "-") (decimalBytes value.natAbs ++ rest) = none := by
      rw [decimalBytes, shape]
      exact expect_fails (minus_not_digit digit) _ _
    apply Reads.orElse_of_fails (bind_fails _ fails)
    exact reads_pure false _

/-- An integer is read back from its decimal digits. -/
theorem reads_number (value : Int) {rest : Bytes} (ends : EndsNumber rest) :
    Reads number (signedBytes value ++ rest) value rest := by
  have integer := reads_digits (decimalDigits_ne_nil value.natAbs) ends
  have places := (reads_pure [] rest).orElse_of_fails (fraction_fails ends)
  have power := (reads_pure 0 rest).orElse_of_fails (exponent_fails ends)
  apply (reads_minus value rest).bind
  apply integer.bind
  apply (reads_guard decimalDigits_head?_zero rest).bind
  apply places.bind
  apply power.bind
  have magnitude : ((value.natAbs : ℚ)) = if value < 0 then -(value : ℚ) else value := by
    split
    · next negative => rw [← Int.cast_neg, ← Int.cast_natCast]; congr 1; omega
    · next positive => rw [← Int.cast_natCast]; congr 1; omega
  have signed : (if decide (value < 0) = true then -(value.natAbs : ℚ) else value.natAbs) =
      value := by
    rw [magnitude]
    by_cases negative : value < 0 <;> simp [negative]
  simp only [digitsValue_decimalDigits, digitsValue_nil, Nat.cast_zero, zero_div, add_zero,
    zpow_zero, mul_one, signed]
  exact reads_pure _ rest

/-- The text does not begin with a blank. -/
def Dense (text : Bytes) : Prop :=
  ∀ next ∈ text.head?, isBlank next = false

theorem dense_cons {next : UInt8} (notBlank : isBlank next = false) (rest : Bytes) :
    Dense (next :: rest) := by
  rintro first member
  cases member
  exact notBlank

theorem reads_blanks {text : Bytes} (dense : Dense text) : Reads blanks text () text := by
  have skipped : Reads (many isBlank) ([] ++ text) [] text := reads_many (by simp) dense
  apply skipped.bind
  exact reads_pure () text

theorem reads_element {fuel : Nat} {text rest : Bytes} {value : Value}
    (read : Reads (bareValue (elements fuel) (members fuel)) text value rest)
    (before : Dense text) (after : Dense rest) : Reads (element (fuel + 1)) text value rest := by
  apply (reads_blanks before).bind
  apply read.bind
  apply (reads_blanks after).bind
  exact reads_pure value rest

theorem shape_of_reads_string {text value rest : Bytes} (read : Reads string text value rest) :
    ∃ others, text = '"'.toUInt8 :: others := by
  cases text with
  | nil => cases read
  | cons first others =>
      by_contra different
      have ne : '"'.toUInt8 ≠ first := by
        rintro rfl
        exact different ⟨others, rfl⟩
      have fails : string (first :: others) = none := bind_fails _ (expect_fails ne [] others)
      rw [Reads, fails] at read
      cases read

section Values

variable {elements : ByteReader (List Value)} {members : ByteReader (List (Bytes × Value))}
variable {text rest : Bytes}

theorem reads_bareValue_string {value : Bytes} (read : Reads string text value rest) :
    Reads (bareValue elements members) text (.string value) rest := by
  obtain ⟨others, rfl⟩ := shape_of_reads_string read
  apply Reads.orElse_of_fails rfl
  apply Reads.orElse_of_fails rfl
  apply Reads.orElse_of_fails rfl
  apply Reads.orElse
  apply read.bind
  exact reads_pure _ rest

theorem reads_bareValue_array {values : List Value} (read : Reads elements text values rest) :
    Reads (bareValue elements members) (ascii "[" ++ text) (.array values) rest := by
  apply Reads.orElse_of_fails rfl
  apply Reads.orElse_of_fails rfl
  apply Reads.orElse_of_fails rfl
  apply Reads.orElse_of_fails rfl
  apply Reads.orElse
  apply (reads_expect (ascii "[") text).bind
  apply read.bind
  exact reads_pure _ rest

theorem reads_bareValue_object {fields : List (Bytes × Value)}
    (read : Reads members text fields rest) :
    Reads (bareValue elements members) (ascii "\x7b" ++ text) (.object fields) rest := by
  apply Reads.orElse_of_fails rfl
  apply Reads.orElse_of_fails rfl
  apply Reads.orElse_of_fails rfl
  apply Reads.orElse_of_fails rfl
  apply Reads.orElse_of_fails rfl
  apply Reads.orElse
  apply (reads_expect (ascii "\x7b") text).bind
  apply read.bind
  exact reads_pure _ rest

theorem reads_bareValue_number {value : ℚ} {first : UInt8}
    (numeric : IsDigitByte first ∨ first = '-'.toUInt8)
    (read : Reads number (first :: text) value rest) :
    Reads (bareValue elements members) (first :: text) (.number value) rest := by
  have notNumeric : ∀ mark ∈ ascii "ntf\"[\x7b",
      ¬ (IsDigitByte mark ∨ mark = '-'.toUInt8) := by decide +kernel
  have other : ∀ mark ∈ ascii "ntf\"[\x7b", mark ≠ first := by
    rintro mark member rfl
    exact notNumeric mark member numeric
  have fails : ∀ {mark}, mark ∈ ascii "ntf\"[\x7b" → ∀ others,
      expect (mark :: others) (first :: text) = none := fun member others =>
    expect_fails (other _ member) others text
  apply Reads.orElse_of_fails (bind_fails _ (fails (by decide) _))
  apply Reads.orElse_of_fails (bind_fails _ (fails (by decide) _))
  apply Reads.orElse_of_fails (bind_fails _ (fails (by decide) _))
  apply Reads.orElse_of_fails (bind_fails _ (bind_fails _ (fails (by decide) _)))
  apply Reads.orElse_of_fails (bind_fails _ (fails (by decide) _))
  apply Reads.orElse_of_fails (bind_fails _ (fails (by decide) _))
  apply read.bind
  exact reads_pure _ rest

end Values

/-- A string stands for itself where a value is read. -/
theorem reads_element_string {fuel : Nat} {text value rest : Bytes}
    (read : Reads string text value rest) (after : Dense rest) :
    Reads (element (fuel + 1)) text (.string value) rest := by
  obtain ⟨others, rfl⟩ := shape_of_reads_string read
  exact reads_element (reads_bareValue_string read) (dense_cons (by decide) others) after

theorem reads_element_array {fuel : Nat} {text rest : Bytes} {values : List Value}
    (read : Reads (elements fuel) text values rest) (after : Dense rest) :
    Reads (element (fuel + 1)) (ascii "[" ++ text) (.array values) rest :=
  reads_element (reads_bareValue_array read) (dense_cons (by decide) text) after

theorem reads_element_object {fuel : Nat} {text rest : Bytes} {fields : List (Bytes × Value)}
    (read : Reads (members fuel) text fields rest) (after : Dense rest) :
    Reads (element (fuel + 1)) (ascii "\x7b" ++ text) (.object fields) rest :=
  reads_element (reads_bareValue_object read) (dense_cons (by decide) text) after

theorem signedBytes_shape (value : Int) :
    ∃ first others, signedBytes value = first :: others ∧
      (IsDigitByte first ∨ first = '-'.toUInt8) := by
  obtain ⟨digit, digits, shape⟩ := List.exists_cons_of_ne_nil (decimalDigits_ne_nil value.natAbs)
  by_cases negative : value < 0
  · exact ⟨'-'.toUInt8, decimalBytes value.natAbs, by rw [signedBytes, if_pos negative]; rfl,
      .inr rfl⟩
  · refine ⟨digitByte digit, digitBytes digits, ?_, .inl (digitByte_isDigitByte digit)⟩
    rw [signedBytes, if_neg negative, decimalBytes, shape]
    rfl

theorem isBlank_of_numeric {first : UInt8} (numeric : IsDigitByte first ∨ first = '-'.toUInt8) :
    isBlank first = false := by
  have notNumeric : ∀ blank ∈ blankBytes, ¬ (IsDigitByte blank ∨ blank = '-'.toUInt8) := by
    decide +kernel
  rw [isBlank, List.contains_eq_mem, decide_eq_false_iff_not]
  exact fun member => notNumeric first member numeric

theorem reads_element_number {fuel : Nat} (value : Int) {rest : Bytes} (ends : EndsNumber rest)
    (after : Dense rest) :
    Reads (element (fuel + 1)) (signedBytes value ++ rest) (.number value) rest := by
  have read := reads_number value ends
  obtain ⟨first, others, shape, numeric⟩ := signedBytes_shape value
  rw [shape, List.cons_append] at read ⊢
  exact reads_element (reads_bareValue_number numeric read)
    (dense_cons (isBlank_of_numeric numeric) _) after

section Members

variable {fuel : Nat} {text body more rest name : Bytes} {value : Value}
variable {fields : List (Bytes × Value)}

theorem reads_moreMembers_last (readName : Reads string text name (':'.toUInt8 :: body))
    (readValue : Reads (element fuel) body value ('\x7d'.toUInt8 :: rest)) :
    Reads (moreMembers (fuel + 1)) text [(name, value)] rest := by
  obtain ⟨others, rfl⟩ := shape_of_reads_string readName
  apply (reads_blanks (dense_cons (by decide) others)).bind
  apply readName.bind
  apply (reads_blanks (dense_cons (by decide) body)).bind
  apply (reads_expect (ascii ":") body).bind
  apply readValue.bind
  apply Reads.orElse
  apply (reads_expect (ascii "\x7d") rest).bind
  exact reads_pure _ rest

theorem reads_moreMembers_cons (readName : Reads string text name (':'.toUInt8 :: body))
    (readValue : Reads (element fuel) body value (','.toUInt8 :: more))
    (others : Reads (moreMembers fuel) more fields rest) :
    Reads (moreMembers (fuel + 1)) text ((name, value) :: fields) rest := by
  obtain ⟨later, rfl⟩ := shape_of_reads_string readName
  apply (reads_blanks (dense_cons (by decide) later)).bind
  apply readName.bind
  apply (reads_blanks (dense_cons (by decide) body)).bind
  apply (reads_expect (ascii ":") body).bind
  apply readValue.bind
  apply Reads.orElse_of_fails rfl
  apply (reads_expect (ascii ",") more).bind
  apply others.bind
  exact reads_pure _ rest

theorem reads_members (shape : text.head? = some '"'.toUInt8)
    (read : Reads (moreMembers fuel) text fields rest) :
    Reads (members (fuel + 1)) text fields rest := by
  obtain ⟨others, rfl⟩ := List.head?_eq_some_iff.mp shape
  exact read.orElse_of_fails rfl

end Members

theorem reads_moreElements_last {fuel : Nat} {text rest : Bytes} {value : Value}
    (read : Reads (element fuel) text value (']'.toUInt8 :: rest)) :
    Reads (moreElements (fuel + 1)) text [value] rest := by
  apply read.bind
  apply Reads.orElse
  apply (reads_expect (ascii "]") rest).bind
  exact reads_pure _ rest

theorem reads_elements {fuel : Nat} {text rest : Bytes} {values : List Value}
    (shape : text.head? = some '"'.toUInt8) (read : Reads (moreElements fuel) text values rest) :
    Reads (elements (fuel + 1)) text values rest := by
  obtain ⟨others, rfl⟩ := List.head?_eq_some_iff.mp shape
  exact read.orElse_of_fails rfl

/-- The bytes that JSON texts are made of. -/
def IsTextByte (byte : UInt8) : Prop :=
  0x20 ≤ byte.toNat ∨ byte ∈ blankBytes

instance (byte : UInt8) : Decidable (IsTextByte byte) :=
  inferInstanceAs (Decidable (_ ∨ _))

theorem takesOnly_ascii {literal : String}
    (textBytes : (ascii literal).all (fun byte => IsTextByte byte) = true) :
    TakesOnly IsTextByte (expect (ascii literal)) :=
  takesOnly_expect fun byte member =>
    of_decide_eq_true (List.all_eq_true.mp textBytes byte member)

theorem takesOnly_hexDigit : TakesOnly IsTextByte hexDigit := by
  refine (takesOnly_symbol fun byte isDigit => .inl ?_).bind fun byte => takesOnly_pure _
  unfold hexDigitValue at isDigit
  by_contra control
  rw [if_neg (by omega), if_neg (by omega), if_neg (by omega)] at isDigit
  cases isDigit

theorem takesOnly_codeUnit : TakesOnly IsTextByte codeUnit :=
  (takesOnly_ascii (by rfl)).bind fun _ =>
    takesOnly_hexDigit.bind fun _ =>
      takesOnly_hexDigit.bind fun _ =>
        takesOnly_hexDigit.bind fun _ =>
          takesOnly_hexDigit.bind fun _ => takesOnly_pure _

theorem takesOnly_surrogatePair : TakesOnly IsTextByte surrogatePair :=
  takesOnly_codeUnit.bind fun _ =>
    (takesOnly_guard _).bind fun _ =>
      takesOnly_codeUnit.bind fun _ =>
        (takesOnly_guard _).bind fun _ => takesOnly_pure _

theorem isTextByte_of_isEscape {mark : UInt8} (escape : isEscape mark = true) :
    IsTextByte mark := by
  obtain ⟨pair, member, equal⟩ := List.lookup_isSome_iff.mp escape
  have textBytes : escapes.all (fun pair => IsTextByte pair.1) = true := by rfl
  rw [beq_iff_eq.mp equal]
  exact of_decide_eq_true (List.all_eq_true.mp textBytes pair member)

theorem takesOnly_character : TakesOnly IsTextByte character := by
  apply TakesOnly.orElse
  · refine (takesOnly_symbol fun byte unescaped => .inl ?_).bind fun _ => takesOnly_pure _
    simp only [isUnescaped, Bool.and_eq_true, decide_eq_true_eq] at unescaped
    exact unescaped.1.1
  · apply TakesOnly.orElse
    · refine (takesOnly_ascii (by rfl)).bind fun _ => ?_
      exact (takesOnly_symbol fun _ => isTextByte_of_isEscape).bind fun _ => takesOnly_pure _
    · exact (takesOnly_surrogatePair.orElse takesOnly_codeUnit).bind fun _ => takesOnly_pure _

theorem takesOnly_characters (fuel : Nat) : TakesOnly IsTextByte (characters fuel) := by
  induction fuel with
  | zero => exact takesOnly_failure
  | succ fuel ih =>
      apply TakesOnly.orElse
      · exact (takesOnly_ascii (by rfl)).bind fun _ => takesOnly_pure _
      · exact takesOnly_character.bind fun _ => ih.bind fun _ => takesOnly_pure _

theorem takesOnly_string : TakesOnly IsTextByte string :=
  (takesOnly_ascii (by rfl)).bind fun _ text value rest read =>
    takesOnly_characters (text.length + 1) text value rest read

theorem takesOnly_digits : TakesOnly IsTextByte digits := by
  refine TakesOnly.bind (takesOnly_many fun byte isDigit => .inl ?_) fun _ =>
    (takesOnly_guard _).bind fun _ => takesOnly_pure _
  have low := (of_decide_eq_true isDigit : IsDigitByte byte).1
  omega

theorem takesOnly_number : TakesOnly IsTextByte number := by
  have minus : TakesOnly IsTextByte minus :=
    ((takesOnly_ascii (by rfl)).bind fun _ => takesOnly_pure _).orElse (takesOnly_pure _)
  have fraction : TakesOnly IsTextByte fraction :=
    (takesOnly_ascii (by rfl)).bind fun _ => takesOnly_digits
  have sign : TakesOnly IsTextByte exponentSign :=
    ((takesOnly_ascii (by rfl)).bind fun _ => takesOnly_pure _).orElse
      (((takesOnly_ascii (by rfl)).bind fun _ => takesOnly_pure _).orElse (takesOnly_pure _))
  have exponent : TakesOnly IsTextByte exponent :=
    ((takesOnly_ascii (by rfl)).orElse (takesOnly_ascii (by rfl))).bind fun _ =>
      sign.bind fun _ => takesOnly_digits.bind fun _ => takesOnly_pure _
  exact minus.bind fun _ => takesOnly_digits.bind fun _ => (takesOnly_guard _).bind fun _ =>
    (fraction.orElse (takesOnly_pure _)).bind fun _ =>
      (exponent.orElse (takesOnly_pure _)).bind fun _ => takesOnly_pure _

theorem takesOnly_blanks : TakesOnly IsTextByte blanks :=
  (takesOnly_many fun _ blank => .inr (List.contains_iff_mem.mp blank)).bind fun _ =>
    takesOnly_pure _

theorem takesOnly_bareValue {elements : ByteReader (List Value)}
    {members : ByteReader (List (Bytes × Value))} (takesElements : TakesOnly IsTextByte elements)
    (takesMembers : TakesOnly IsTextByte members) :
    TakesOnly IsTextByte (bareValue elements members) := by
  apply TakesOnly.orElse
  · exact (takesOnly_ascii (by rfl)).bind fun _ => takesOnly_pure _
  apply TakesOnly.orElse
  · exact (takesOnly_ascii (by rfl)).bind fun _ => takesOnly_pure _
  apply TakesOnly.orElse
  · exact (takesOnly_ascii (by rfl)).bind fun _ => takesOnly_pure _
  apply TakesOnly.orElse
  · exact takesOnly_string.bind fun _ => takesOnly_pure _
  apply TakesOnly.orElse
  · exact (takesOnly_ascii (by rfl)).bind fun _ => takesElements.bind fun _ => takesOnly_pure _
  apply TakesOnly.orElse
  · exact (takesOnly_ascii (by rfl)).bind fun _ => takesMembers.bind fun _ => takesOnly_pure _
  · exact takesOnly_number.bind fun _ => takesOnly_pure _

/-- The readers of values take only bytes of JSON texts. -/
structure ValuesTakeOnly (fuel : Nat) : Prop where
  element : TakesOnly IsTextByte (element fuel)
  elements : TakesOnly IsTextByte (elements fuel)
  moreElements : TakesOnly IsTextByte (moreElements fuel)
  members : TakesOnly IsTextByte (members fuel)
  moreMembers : TakesOnly IsTextByte (moreMembers fuel)

theorem valuesTakeOnly (fuel : Nat) : ValuesTakeOnly fuel := by
  induction fuel with
  | zero =>
      exact ⟨takesOnly_failure, takesOnly_failure, takesOnly_failure, takesOnly_failure,
        takesOnly_failure⟩
  | succ fuel ih =>
      constructor
      case element =>
        exact takesOnly_blanks.bind fun _ => (takesOnly_bareValue ih.elements ih.members).bind
          fun _ => takesOnly_blanks.bind fun _ => takesOnly_pure _
      case elements =>
        refine TakesOnly.orElse ?_ ih.moreElements
        exact takesOnly_blanks.bind fun _ => (takesOnly_ascii (by rfl)).bind fun _ =>
          takesOnly_pure _
      case moreElements =>
        refine ih.element.bind fun _ => TakesOnly.orElse ?_ ?_
        · exact (takesOnly_ascii (by rfl)).bind fun _ => takesOnly_pure _
        · exact (takesOnly_ascii (by rfl)).bind fun _ => ih.moreElements.bind fun _ =>
            takesOnly_pure _
      case members =>
        refine TakesOnly.orElse ?_ ih.moreMembers
        exact takesOnly_blanks.bind fun _ => (takesOnly_ascii (by rfl)).bind fun _ =>
          takesOnly_pure _
      case moreMembers =>
        refine takesOnly_blanks.bind fun _ => takesOnly_string.bind fun _ =>
          takesOnly_blanks.bind fun _ => (takesOnly_ascii (by rfl)).bind fun _ =>
            ih.element.bind fun _ => TakesOnly.orElse ?_ ?_
        · exact (takesOnly_ascii (by rfl)).bind fun _ => takesOnly_pure _
        · exact (takesOnly_ascii (by rfl)).bind fun _ => ih.moreMembers.bind fun _ =>
            takesOnly_pure _

/-- A JSON text has no control characters but blanks. -/
theorem isTextByte_of_decode {text : Bytes} {value : Value} (decoded : decode text = some value) :
    ∀ byte ∈ text, IsTextByte byte :=
  (valuesTakeOnly _).element.of_readAll decoded

end JsonTexts
