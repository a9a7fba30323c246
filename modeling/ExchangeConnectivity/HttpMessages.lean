import ExchangeConnectivity.ByteStrings

/-!
# HTTP messages

The requests of the REST clients and the messages made of them.  Boost.Beast,
which holds and changes the fields of a message, is a parameter of the clients.
-/

namespace ExchangeConnectivity

open ByteStrings

namespace HttpExchange

/-- The values of `http::verb` the clients or Beast's setters tell apart. -/
inductive Verb
  | unknown
  | delete
  | get
  | post
  | put
  | patch
  | trace
  | other (code : Nat)
  deriving DecidableEq

/-- A `std::map<std::string, std::string>`, in the order of its keys. -/
abbrev Headers := List (Bytes × Bytes)

/-- What a caller or a redirect asks for. -/
structure Request where
  method : Verb
  target : Bytes
  body : Bytes
  headers : Headers
  deriving DecidableEq

/-- An `http::request<http::string_body>` of version 1.1. -/
structure HttpMessage where
  method : Verb
  target : Bytes
  fields : List (Bytes × Bytes) := []
  body : Bytes := []
  deriving DecidableEq

/-- The value of the first field of a name, ignoring case. -/
def firstNamed (fields : List (Bytes × Bytes)) (name : Bytes) : Option Bytes :=
  (fields.find? fun field => toLower field.1 = toLower name).map Prod.snd

/-- The fields of a name, ignoring case, replaced by one of a value or by none. -/
def replaceNamed (fields : List (Bytes × Bytes)) (name : Bytes) (value : Option Bytes) :
    List (Bytes × Bytes) :=
  fields.filter (fun field => toLower field.1 ≠ toLower name) ++ (value.map (name, ·)).toList

def HttpMessage.field? (message : HttpMessage) (name : Bytes) : Option Bytes :=
  firstNamed message.fields name

/-- No two of the fields have one name. -/
def NoneTwice (fields : List (Bytes × Bytes)) : Prop :=
  (fields.map fun field => toLower field.1).Nodup

def HttpMessage.Unambiguous (message : HttpMessage) : Prop :=
  NoneTwice message.fields

/-- The requests whose payload the clients have Beast prepare. -/
def PreparesPayload (method : Verb) (body : Bytes) : Prop :=
  body ≠ [] ∨ method ∈ [Verb.post, .put, .patch]

instance (method : Verb) (body : Bytes) : Decidable (PreparesPayload method body) :=
  inferInstanceAs (Decidable (_ ∨ _))

/-- The requests whose message gets the length of the body. -/
def SetsLength (method : Verb) (body : Bytes) : Prop :=
  body ≠ [] ∨ method = .put ∨ method = .post

instance (method : Verb) (body : Bytes) : Decidable (SetsLength method body) :=
  inferInstanceAs (Decidable (_ ∨ _))

/-- What the clients build their messages with, and what Beast documents of it.
`withoutChunked` is what `prepare_payload` leaves of a transfer encoding, and
`accepts` tells that nothing throws when the message of a request is built. -/
structure Beast where
  set : HttpMessage → Bytes → Bytes → HttpMessage
  preparePayload : HttpMessage → HttpMessage
  withoutChunked : Bytes → Option Bytes
  accepts : Request → Bool
  set_eq : ∀ message name value,
    set message name value =
      { message with fields := replaceNamed message.fields name (some value) }
  preparePayload_eq : ∀ message,
    preparePayload message = { message with fields := (preparePayload message).fields }
  preparePayload_unambiguous : ∀ message, message.Unambiguous → (preparePayload message).Unambiguous
  /-- The length of the body is put in or taken out, and the chunked coding is
  taken off. -/
  preparePayload_field? : ∀ message name, message.Unambiguous →
    PreparesPayload message.method message.body → message.method ≠ .trace →
      (preparePayload message).field? name =
        if ascii "content-length" = toLower name then
          if SetsLength message.method message.body then
            some (ascii (toString message.body.length))
          else none
        else if ascii "transfer-encoding" = toLower name then
          (message.field? name).bind withoutChunked
        else message.field? name
  withoutChunked_chunked : ∀ coding, toLower coding = ascii "chunked" → withoutChunked coding = none
  accepts_target : ∀ request target, accepts { request with target } = accepts request
  accepts_get : ∀ request, accepts request → accepts { request with method := .get, body := [] }
  /-- Beast refuses the body of a `TRACE` request. -/
  accepts_trace : ∀ request, accepts request → request.method = .trace → request.body = []

section Fields

variable (fields first second : List (Bytes × Bytes)) (name other : Bytes)

theorem firstNamed_append :
    firstNamed (first ++ second) name = (firstNamed first name).or (firstNamed second name) := by
  rw [firstNamed, List.find?_append, Option.map_or]
  rfl

theorem firstNamed_singleton (field : Bytes × Bytes) :
    firstNamed [field] name = if toLower field.1 = toLower name then some field.2 else none := by
  rw [firstNamed, List.find?_singleton]
  by_cases same : toLower field.1 = toLower name <;> simp [same]

theorem firstNamed_replaceNamed (value : Option Bytes) :
    firstNamed (replaceNamed fields name value) other =
      if toLower name = toLower other then value else firstNamed fields other := by
  have put : firstNamed (value.map (name, ·)).toList other =
      if toLower name = toLower other then value else none := by
    cases value with
    | none => exact (ite_self none).symm
    | some value => exact firstNamed_singleton other (name, value)
  rw [replaceNamed, firstNamed_append, put]
  split
  next same =>
    have replaced : firstNamed (fields.filter fun field => toLower field.1 ≠ toLower name) other =
        none := by
      rw [firstNamed, List.find?_filter, Option.map_eq_none_iff, List.find?_eq_none]
      simp [same]
    rw [replaced, Option.none_or]
  next different =>
    rw [Option.or_none, firstNamed, List.find?_filter, firstNamed]
    congr 2
    funext field
    by_cases found : toLower field.1 = toLower other
    · simp [found, Ne.symm different]
    · simp [found]

theorem noneTwice_replaceNamed {fields : List (Bytes × Bytes)} (noneTwice : NoneTwice fields)
    (value : Option Bytes) : NoneTwice (replaceNamed fields name value) := by
  have kept : NoneTwice (fields.filter fun field => toLower field.1 ≠ toLower name) :=
    noneTwice.sublist (List.filter_sublist.map _)
  cases value with
  | none =>
      rw [replaceNamed, Option.map_none, Option.toList_none, List.append_nil]
      exact kept
  | some value =>
      rw [NoneTwice, replaceNamed, List.map_append, List.nodup_append]
      refine ⟨kept, by simp, ?_⟩
      intro key member set isSet same
      obtain ⟨field, fieldKept, rfl⟩ := List.mem_map.mp member
      have isName : set = toLower name := List.mem_singleton.mp isSet
      simp [same, isName] at fieldKept

end Fields

namespace Beast

section Set

variable (beast : Beast) (message : HttpMessage) (name value other : Bytes)

theorem set_field? :
    (beast.set message name value).field? other =
      if toLower name = toLower other then some value else message.field? other := by
  rw [beast.set_eq]
  exact firstNamed_replaceNamed message.fields name other value

theorem set_unambiguous (unambiguous : message.Unambiguous) :
    (beast.set message name value).Unambiguous := by
  rw [beast.set_eq]
  exact noneTwice_replaceNamed name unambiguous value

end Set

/-- What is left of a transfer encoding that is the chunked coding or does not
end with it. -/
def chunkedAlone (coding : Bytes) : Option Bytes :=
  if toLower coding = ascii "chunked" then none else some coding

def prepared (message : HttpMessage) : HttpMessage :=
  let length :=
    if SetsLength message.method message.body then some (ascii (toString message.body.length))
    else none
  let fields := replaceNamed message.fields (ascii "Content-Length") length
  let coding := (message.field? (ascii "Transfer-Encoding")).bind chunkedAlone
  { message with fields := replaceNamed fields (ascii "Transfer-Encoding") coding }

/-- A Beast that takes no list of codings apart. -/
def simple : Beast where
  set message name value := { message with fields := replaceNamed message.fields name (some value) }
  preparePayload := prepared
  withoutChunked := chunkedAlone
  accepts request := request.method ≠ .unknown ∧ (request.method = .trace → request.body = [])
  set_eq _ _ _ := rfl
  preparePayload_eq _ := rfl
  preparePayload_unambiguous message unambiguous :=
    noneTwice_replaceNamed _ (noneTwice_replaceNamed _ unambiguous _) _
  preparePayload_field? message name _ _ _ := by
    have lengthName : toLower (ascii "Content-Length") = ascii "content-length" := rfl
    have codingName : toLower (ascii "Transfer-Encoding") = ascii "transfer-encoding" := rfl
    rw [prepared, HttpMessage.field?, firstNamed_replaceNamed, firstNamed_replaceNamed,
      lengthName, codingName]
    by_cases isLength : ascii "content-length" = toLower name
    · have notCoding : ascii "transfer-encoding" ≠ toLower name := by
        rw [← isLength]
        decide
      rw [if_neg notCoding, if_pos isLength, if_pos isLength]
    · rw [if_neg isLength, if_neg isLength]
      split
      next isCoding =>
        have sameName : message.field? (ascii "Transfer-Encoding") = message.field? name := by
          rw [HttpMessage.field?, firstNamed, codingName, isCoding]
          rfl
        rw [sameName]
      next => rfl
  withoutChunked_chunked coding chunked := if_pos chunked
  accepts_target _ _ := rfl
  accepts_get := by simp
  accepts_trace request accepted isTrace := (of_decide_eq_true accepted).2 isTrace

end Beast

end HttpExchange

end ExchangeConnectivity
