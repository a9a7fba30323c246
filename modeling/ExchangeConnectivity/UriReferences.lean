import ExchangeConnectivity.ByteStrings

/-!
# References that name an authority

RFC 3986 writes such a reference as `scheme://authority` or `//authority`
followed by a path, a query or a fragment.  The authority consists of a host
with an optional user information before it and an optional port after it.
The parts may hold any bytes but the delimiters that would end them.
-/

namespace UriReferences

open ByteStrings

/-- The general delimiters. -/
def isDelimiter (byte : UInt8) : Bool :=
  (ascii ":/?#[]@").contains byte

def isDigit (byte : UInt8) : Bool :=
  48 ≤ byte.toNat && byte.toNat ≤ 57

def isAlpha (byte : UInt8) : Bool :=
  (65 ≤ byte.toNat && byte.toNat ≤ 90) || (97 ≤ byte.toNat && byte.toNat ≤ 122)

/-- A letter followed by letters, digits, `+`, `-` and `.`. -/
def IsScheme (name : Bytes) : Prop :=
  (∃ first ∈ name.head?, isAlpha first = true) ∧
    ∀ byte ∈ name, isAlpha byte = true ∨ isDigit byte = true ∨ byte ∈ ascii "+-."

/-- A registered name or an IPv4 address has no delimiters; other addresses
stand in brackets and may have colons. -/
def IsHost (host : Bytes) : Prop :=
  (∀ byte ∈ host, isDelimiter byte = false) ∨
    ∃ address, host = ascii "[" ++ address ++ ascii "]" ∧
      ∀ byte ∈ address, isDelimiter byte = true → byte = ':'.toUInt8

/-- A reference that names an authority; `rest` is the path, the query and
the fragment. -/
structure Reference where
  scheme : Option Bytes
  userinfo : Option Bytes
  host : Bytes
  port : Option Bytes
  rest : Bytes
  scheme_valid : ∀ name ∈ scheme, IsScheme name
  userinfo_valid : ∀ text ∈ userinfo, ∀ byte ∈ text,
    isDelimiter byte = true → byte = ':'.toUInt8
  host_valid : IsHost host
  port_valid : ∀ text ∈ port, ∀ byte ∈ text, isDigit byte = true
  rest_valid : ∀ first ∈ rest.head?, first ∈ ascii "/?#"

namespace Reference

/-- The user information with its separator. -/
def userinfoText (reference : Reference) : Bytes :=
  match reference.userinfo with
  | none => []
  | some text => text ++ ascii "@"

/-- The port with its separator. -/
def portText (reference : Reference) : Bytes :=
  match reference.port with
  | none => []
  | some text => ascii ":" ++ text

def authority (reference : Reference) : Bytes :=
  reference.userinfoText ++ reference.host ++ reference.portText

def schemeText (reference : Reference) : Bytes :=
  match reference.scheme with
  | none => []
  | some name => name ++ ascii ":"

def text (reference : Reference) : Bytes :=
  reference.schemeText ++ ascii "//" ++ (reference.authority ++ reference.rest)

theorem colon_not_mem_scheme {name : Bytes} (valid : IsScheme name) :
    ':'.toUInt8 ∉ name := by
  intro member
  rcases valid.2 _ member with alpha | digit | mark
  · revert alpha
    decide
  · revert digit
    decide
  · revert mark
    decide

/-- A reference with a scheme has its first `://` right after the scheme. -/
theorem afterFirst_text_of_scheme {reference : Reference} {name : Bytes}
    (absolute : reference.scheme = some name) :
    afterFirst (ascii "://") reference.text =
      some (reference.authority ++ reference.rest) := by
  have valid := reference.scheme_valid name absolute
  have written : reference.text =
      name ++ ':'.toUInt8 :: (ascii "//" ++ (reference.authority ++ reference.rest)) := by
    simp only [text, schemeText, absolute, List.append_assoc]
    rfl
  rw [written]
  exact afterFirst_append (colon_not_mem_scheme valid) _ _

end Reference

end UriReferences
