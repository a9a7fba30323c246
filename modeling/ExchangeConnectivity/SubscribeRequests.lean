import ExchangeConnectivity.JsonTexts
import ExchangeConnectivity.SignedQueries
import ExchangeConnectivity.UserDataStream
import Mathlib.Data.List.Sort

/-!
# Subscribe requests as JSON texts

The exchange reads the parameters out of the JSON text and checks the
signature against them, so what it decodes has to be what was signed.  Control
characters that are copied into the text unescaped break this.
-/

namespace ExchangeConnectivity

open ByteStrings DecimalNumerals PercentEncoding TextReaders JsonTexts Utilities

namespace BinanceUserDataStream

/-- The text of a parameter in a query. -/
def parameterText : Value → Option Bytes
  | .string text => some text
  | .number number => if number.den = 1 then some (signedBytes number.num) else none
  | _ => none

/-- The parameters other than the signature in alphabetical order. -/
def signedParameters (parameters : List (Bytes × Value)) : List (Bytes × Value) :=
  (parameters.filter fun parameter => parameter.1 ≠ ascii "signature").insertionSort
    fun first second => first.1 ≤ second.1

/-- The query the signature is to cover. -/
def signedText (parameters : List (Bytes × Value)) : Option Bytes := do
  let pairs ← (signedParameters parameters).mapM fun parameter =>
    (parameterText parameter.2).map fun text => (parameter.1, text)
  some (renderQuery pairs)

/-- The parameters the exchange is to decode. -/
def parameters (apiKey : Bytes) (timestamp : Int64) (signature : Bytes) : List (Bytes × Value) :=
  [(ascii "apiKey", .string apiKey), (ascii "recvWindow", .number recvWindow.toInt),
    (ascii "timestamp", .number timestamp.toInt), (ascii "signature", .string signature)]

/-- The request is a JSON text whose parameters are those of the stream, and
the signature in it was computed over the others. -/
def Conforms (hmac : Bytes → Int32 → Bytes → Option Bytes) (stream : BinanceUserDataStream)
    (timestamp : Int64) (request : Bytes) : Prop :=
  ∃ fields signature, IsJsonText request (.object fields) ∧
    fields.lookup (ascii "params") =
      some (.object (parameters stream.apiKey timestamp signature)) ∧
    signedText (parameters stream.apiKey timestamp signature) =
      some (stream.payload timestamp) ∧
    createSignature hmac (stream.payload timestamp) stream.secretKey = some signature

theorem signedParameters_parameters (apiKey : Bytes) (timestamp : Int64) (signature : Bytes) :
    signedParameters (parameters apiKey timestamp signature) =
      [(ascii "apiKey", .string apiKey), (ascii "recvWindow", .number recvWindow.toInt),
        (ascii "timestamp", .number timestamp.toInt)] := by
  have sorted : [(ascii "apiKey", Value.string apiKey),
      (ascii "recvWindow", .number recvWindow.toInt),
      (ascii "timestamp", .number timestamp.toInt)].Pairwise
        (fun first second => first.1 ≤ second.1) := by
    simp only [List.pairwise_cons, List.mem_cons, List.not_mem_nil, or_false, forall_eq_or_imp,
      forall_eq, IsEmpty.forall_iff, implies_true, List.Pairwise.nil, and_true]
    decide
  exact sorted.insertionSort_eq

/-- The decoded parameters, written as a query, are the payload. -/
theorem signedText_parameters (stream : BinanceUserDataStream) (timestamp : Int64)
    (signature : Bytes) :
    signedText (parameters stream.apiKey timestamp signature) =
      some (stream.payload timestamp) := by
  unfold signedText
  rw [signedParameters_parameters]
  simp only [List.mapM_cons, List.mapM_nil, parameterText, Rat.den_intCast, if_true,
    Option.map_some, Option.pure_def, Option.bind_eq_bind, Option.bind_some, renderQuery,
    List.map_cons, List.map_nil, renderPair, payload, List.append_assoc]
  simp [List.intercalate]
  rfl

/-- The bytes that `escapeJsonString` writes as a JSON text requires: of the
control characters only these have an escape. -/
def Representable (byte : UInt8) : Prop :=
  0x20 ≤ byte.toNat ∨ byte ∈ [(0x08 : UInt8), 0x09, 0x0A, 0x0C, 0x0D]

instance (byte : UInt8) : Decidable (Representable byte) :=
  inferInstanceAs (Decidable (_ ∨ _))

theorem spells_escapeCharacter {byte : UInt8} (representable : Representable byte) :
    Spells (escapeCharacter byte) byte := by
  unfold escapeCharacter
  split_ifs with quote backslash backspace formFeed lineFeed return' tab
  · rw [quote]; exact spells_escape rfl
  · rw [backslash]; exact spells_escape rfl
  · rw [backspace]; exact spells_escape rfl
  · rw [formFeed]; exact spells_escape rfl
  · rw [lineFeed]; exact spells_escape rfl
  · rw [return']; exact spells_escape rfl
  · rw [tab]; exact spells_escape rfl
  · apply spells_unescaped
    have printable : 0x20 ≤ byte.toNat := by
      simpa [Representable, backspace, formFeed, lineFeed, return', tab] using representable
    simp [isUnescaped, printable, quote, backslash]

theorem reads_escapeJsonString {value : Bytes} (representable : ∀ byte ∈ value, Representable byte)
    (rest : Bytes) : Reads string (quoted (escapeJsonString value) ++ rest) value rest :=
  reads_string (fun byte member => spells_escapeCharacter (representable byte member)) rest

theorem isUnescaped_toHex (data : Bytes) : ∀ byte ∈ toHex data, isUnescaped byte = true := by
  intro byte member
  rw [toHex_eq_upperHex, upperHex, List.mem_flatMap] at member
  obtain ⟨digit, -, inPair⟩ := member
  have range := toNat_of_mem_hexPair inPair
  have notQuote : byte ≠ '"'.toUInt8 := by
    rintro rfl
    revert range
    decide
  have notBackslash : byte ≠ '\\'.toUInt8 := by
    rintro rfl
    revert range
    decide
  have printable : 0x20 ≤ byte.toNat := by omega
  simp [isUnescaped, printable, notQuote, notBackslash]

/-- The text of the parameters, from the first name to the closing brace. -/
def parametersText (apiKey : Bytes) (timestamp : Int64) (signature rest : Bytes) : Bytes :=
  quoted (ascii "apiKey") ++ ':'.toUInt8 :: (quoted (escapeJsonString apiKey) ++ ','.toUInt8 ::
    (quoted (ascii "recvWindow") ++ ':'.toUInt8 :: (signedBytes recvWindow.toInt ++ ','.toUInt8 ::
      (quoted (ascii "timestamp") ++ ':'.toUInt8 :: (signedBytes timestamp.toInt ++ ','.toUInt8 ::
        (quoted (ascii "signature") ++ ':'.toUInt8 ::
          (quoted signature ++ '\x7d'.toUInt8 :: rest)))))))

theorem reads_name {name : String} (plain : (ascii name).all isUnescaped = true)
    (rest : Bytes) : Reads string (quoted (ascii name) ++ rest) (ascii name) rest :=
  reads_string_unescaped (List.all_eq_true.mp plain) rest

theorem reads_parameters {apiKey : Bytes} (representable : ∀ byte ∈ apiKey, Representable byte)
    (timestamp : Int64) {signature : Bytes}
    (plain : ∀ byte ∈ signature, isUnescaped byte = true) (rest : Bytes) (fuel : Nat) :
    Reads (moreMembers (fuel + 5)) (parametersText apiKey timestamp signature rest)
      (parameters apiKey timestamp signature) rest := by
  have comma : ∀ others : Bytes, EndsNumber (','.toUInt8 :: others) ∧
      Dense (','.toUInt8 :: others) := fun others =>
    ⟨by rintro next member; cases member; decide, dense_cons (by decide) others⟩
  apply reads_moreMembers_cons (reads_name (by rfl) _)
  · exact reads_element_string (reads_escapeJsonString representable _) (comma _).2
  apply reads_moreMembers_cons (reads_name (by rfl) _)
  · exact reads_element_number recvWindow.toInt (comma _).1 (comma _).2
  apply reads_moreMembers_cons (reads_name (by rfl) _)
  · exact reads_element_number timestamp.toInt (comma _).1 (comma _).2
  apply reads_moreMembers_last (reads_name (by rfl) _)
  exact reads_element_string (reads_string_unescaped plain _) (dense_cons (by decide) rest)

theorem request_eq (stream : BinanceUserDataStream) (timestamp : Int64) (signature : Bytes) :
    stream.request timestamp signature =
      ascii "\x7b" ++ (quoted (ascii "id") ++ ':'.toUInt8 :: (quoted (ascii "1") ++ ','.toUInt8 ::
        (quoted (ascii "method") ++ ':'.toUInt8 ::
          (quoted (ascii "userDataStream.subscribe.signature") ++ ','.toUInt8 ::
            (quoted (ascii "params") ++ ':'.toUInt8 ::
              (ascii "\x7b" ++
                parametersText stream.apiKey timestamp signature ['\x7d'.toUInt8])))))) := by
  simp only [request, parametersText, quoted, toDecimal, List.append_assoc, List.cons_append,
    List.nil_append]
  rfl

/-- The whole text is read as an object with the parameters in it. -/
theorem decode_request {stream : BinanceUserDataStream}
    (representable : ∀ byte ∈ stream.apiKey, Representable byte) (timestamp : Int64)
    {signature : Bytes} (plain : ∀ byte ∈ signature, isUnescaped byte = true) :
    decode (stream.request timestamp signature) =
      some (.object [(ascii "id", .string (ascii "1")),
        (ascii "method", .string (ascii "userDataStream.subscribe.signature")),
        (ascii "params", .object (parameters stream.apiKey timestamp signature))]) := by
  obtain ⟨fuel, enough⟩ : ∃ fuel,
      3 * (stream.request timestamp signature).length + 3 = fuel + 12 := by
    refine ⟨3 * (stream.request timestamp signature).length - 9, ?_⟩
    have long : 3 ≤ (stream.request timestamp signature).length := by
      rw [request_eq]
      simp only [quoted, List.length_append, List.length_cons]
      omega
    omega
  have comma : ∀ others : Bytes, Dense (','.toUInt8 :: others) := dense_cons (by decide)
  have brace : ∀ others : Bytes, Dense ('\x7d'.toUInt8 :: others) := dense_cons (by decide)
  have nothing : Dense [] := by
    rintro next member
    cases member
  unfold decode
  rw [enough, readAll_eq_some_iff, request_eq]
  apply reads_element_object _ nothing
  apply reads_members rfl
  apply reads_moreMembers_cons (reads_name (by rfl) _)
  · exact reads_element_string (reads_name (by rfl) _) (comma _)
  apply reads_moreMembers_cons (reads_name (by rfl) _)
  · exact reads_element_string (reads_name (by rfl) _) (comma _)
  apply reads_moreMembers_last (reads_name (by rfl) _)
  apply reads_element_object _ (brace [])
  apply reads_members rfl
  exact reads_parameters representable timestamp plain _ fuel

theorem sevenBit_escapeCharacter {character : UInt8} (small : character.toNat < 0x80) :
    SevenBit (escapeCharacter character) := by
  unfold escapeCharacter
  split_ifs
  case neg => exact List.forall_mem_singleton.mpr small
  all_goals decide

theorem sevenBit_escapeJsonString {value : Bytes} (sevenBit : SevenBit value) :
    SevenBit (escapeJsonString value) := by
  intro byte member
  obtain ⟨character, inValue, inEscape⟩ := List.mem_flatMap.mp member
  exact sevenBit_escapeCharacter (sevenBit character inValue) byte inEscape

theorem sevenBit_toDecimal (value : Int64) : SevenBit (toDecimal value) := by
  have digits : SevenBit (decimalBytes value.toInt.natAbs) := by
    intro byte member
    have range := isDigitByte_of_mem_digitBytes member
    unfold IsDigitByte at range
    omega
  unfold toDecimal signedBytes
  split
  · exact SevenBit.append (by decide) digits
  · exact digits

theorem sevenBit_toHex (data : Bytes) : SevenBit (toHex data) := by
  intro byte member
  rw [toHex_eq_upperHex, upperHex, List.mem_flatMap] at member
  obtain ⟨digit, -, inPair⟩ := member
  have range := toNat_of_mem_hexPair inPair
  omega

theorem sevenBit_request {stream : BinanceUserDataStream} (sevenKey : SevenBit stream.apiKey)
    (timestamp : Int64) {signature : Bytes} (sevenSignature : SevenBit signature) :
    SevenBit (stream.request timestamp signature) := by
  unfold request
  apply SevenBit.append _ (by decide)
  apply SevenBit.append _ sevenSignature
  apply SevenBit.append _ (by decide)
  apply SevenBit.append _ (sevenBit_toDecimal timestamp)
  apply SevenBit.append _ (by decide)
  apply SevenBit.append _ (sevenBit_toDecimal recvWindow)
  apply SevenBit.append _ (by decide)
  exact SevenBit.append (by decide) (sevenBit_escapeJsonString sevenKey)

/-- A control character without an escape is copied into the request. -/
theorem mem_request_of_not_representable {stream : BinanceUserDataStream} {byte : UInt8}
    (member : byte ∈ stream.apiKey) (control : ¬ Representable byte) (timestamp : Int64)
    (signature : Bytes) : byte ∈ stream.request timestamp signature := by
  have copied : escapeCharacter byte = [byte] := by
    unfold escapeCharacter
    have other : ∀ escaped : UInt8, Representable escaped → byte ≠ escaped := by
      rintro escaped representable rfl
      exact control representable
    repeat rw [if_neg (other _ (by decide))]
  have inKey : byte ∈ escapeJsonString stream.apiKey :=
    List.mem_flatMap.mpr ⟨byte, member, by rw [copied]; exact List.mem_singleton_self byte⟩
  simp [request, inKey]

theorem representable_of_isTextByte {byte : UInt8} (textByte : IsTextByte byte) :
    Representable byte := by
  rcases textByte with printable | blank
  · exact .inl printable
  · revert byte
    decide +kernel

theorem exists_digest {hmac : Bytes → Int32 → Bytes → Option Bytes}
    {payload secretKey signature : Bytes}
    (signed : createSignature hmac payload secretKey = some signature) :
    ∃ digest, signature = toHex digest := by
  unfold createSignature at signed
  split at signed
  · cases signed
  · obtain ⟨digest, -, hex⟩ := Option.map_eq_some_iff.mp signed
    exact ⟨digest, hex.symm⟩

theorem not_conforms_of_control {hmac : Bytes → Int32 → Bytes → Option Bytes}
    {stream : BinanceUserDataStream} {byte : UInt8} (member : byte ∈ stream.apiKey)
    (control : ¬ Representable byte) (timestamp : Int64) (signature : Bytes) :
    ¬ Conforms hmac stream timestamp (stream.request timestamp signature) := by
  rintro ⟨fields, -, text, -⟩
  have copied := mem_request_of_not_representable member control timestamp signature
  exact control (representable_of_isTextByte (isTextByte_of_decode text.decodes byte copied))

/-- A request conforms when every control character of the key has an escape. -/
theorem subscribeRequest_conforms_iff (hmac : Bytes → Int32 → Bytes → Option Bytes)
    (stream : BinanceUserDataStream) (timestamp : Int64) (request : Bytes)
    (sevenBit : SevenBit stream.apiKey)
    (built : createSubscribeRequest hmac stream timestamp = some request) :
    Conforms hmac stream timestamp request ↔ ∀ byte ∈ stream.apiKey, Representable byte := by
  obtain ⟨signature, signed, equal⟩ := Option.bind_eq_some_iff.mp built
  cases equal
  constructor
  · intro conforms byte member
    by_contra control
    exact not_conforms_of_control member control timestamp signature conforms
  · intro representable
    obtain ⟨digest, rfl⟩ := exists_digest signed
    have decoded := decode_request representable timestamp (isUnescaped_toHex digest)
    have seven := sevenBit_request sevenBit timestamp (sevenBit_toHex digest)
    exact ⟨_, toHex digest, ⟨seven.isUtf8, decoded⟩, rfl, signedText_parameters stream timestamp _,
      signed⟩

/-- A key with a quotation mark and a line feed in it. -/
theorem subscribeRequest_conforms_escaped :
    Conforms (fun _ _ _ => some [0xAB]) ⟨ascii "a\"\nb", ascii "secret"⟩ 1499827319559
      (BinanceUserDataStream.request ⟨ascii "a\"\nb", ascii "secret"⟩ 1499827319559
        (ascii "AB")) :=
  (subscribeRequest_conforms_iff (fun _ _ _ => some [0xAB]) ⟨ascii "a\"\nb", ascii "secret"⟩
    1499827319559 _ (by decide) (by rfl)).mpr (by decide +kernel)

/-- A key with the control character 1 in it yields no JSON text. -/
theorem control_character_breaks_request :
    SevenBit [0x01] ∧
      createSubscribeRequest (fun _ _ _ => some [0xAB]) ⟨[0x01], ascii "secret"⟩ 1499827319559 =
        some (BinanceUserDataStream.request ⟨[0x01], ascii "secret"⟩ 1499827319559
          (ascii "AB")) ∧
      ¬ Conforms (fun _ _ _ => some [0xAB]) ⟨[0x01], ascii "secret"⟩ 1499827319559
        (BinanceUserDataStream.request ⟨[0x01], ascii "secret"⟩ 1499827319559
          (ascii "AB")) :=
  ⟨by decide, by rfl, not_conforms_of_control (List.mem_singleton_self _) (by decide) _ _⟩

end BinanceUserDataStream

end ExchangeConnectivity
