import ExchangeConnectivity.ByteStrings
import ExchangeConnectivity.FailingComputations
import Mathlib.Algebra.Group.Nat.Defs
import Mathlib.Data.List.Nodup

/-!
# JSON values and the libraries that read them

The parsers read JSON through two third-party libraries.  Both deliver the
same values: integers tagged as signed or unsigned 64-bit numbers, other
numbers as doubles, strings of arbitrary bytes, arrays, and objects as fields
in document order.  This file fixes those values and the ways a parsing
function can fail.  Each library is a parameter: the functions that the source
calls, with what they are documented to do.
-/

namespace ExchangeConnectivity

open ByteStrings FailingComputations

inductive Json
  | null
  | bool (value : Bool)
  | int64 (value : Int64)
  | uint64 (value : UInt64)
  | double (bits : UInt64)
  | string (value : Bytes)
  | array (elements : List Json)
  | object (fields : List (Bytes × Json))

namespace Json

def IsObject (json : Json) : Prop :=
  ∃ fields, json = .object fields

/-- The first field of this name in an object. -/
def FirstField (json : Json) (key : String) (content : Json) : Prop :=
  ∃ fields, json = .object fields ∧ fields.lookup (ascii key) = some content

/-- A non-negative integer, this one. -/
def IsUnsigned (json : Json) (number : UInt64) : Prop :=
  json = .uint64 number ∨ ∃ value : Int64, json = .int64 value ∧ 0 ≤ value ∧
    value.toUInt64 = number

/-- An integer below `2 ^ 63`, this one. -/
def IsSigned (json : Json) (number : Int64) : Prop :=
  json = .int64 number ∨ ∃ value : UInt64, json = .uint64 value ∧ value.toNat < 2 ^ 63 ∧
    value.toInt64 = number

theorem FirstField.isObject {json content : Json} {key : String}
    (first : json.FirstField key content) : json.IsObject := by
  obtain ⟨fields, object, -⟩ := first
  exact ⟨fields, object⟩

theorem FirstField.unique {json content other : Json} {key : String}
    (first : json.FirstField key content) (second : json.FirstField key other) :
    content = other := by
  obtain ⟨fields, rfl, found⟩ := first
  obtain ⟨_, object, foundAgain⟩ := second
  cases object
  exact Option.some.inj (found.symm.trans foundAgain)

theorem IsSigned.isUnsigned {json : Json} {number : Int64} (signed : json.IsSigned number)
    (nonnegative : 0 ≤ number) : json.IsUnsigned number.toUInt64 := by
  rcases signed with rfl | ⟨value, rfl, -, rfl⟩
  · exact .inr ⟨number, rfl, nonnegative, rfl⟩
  · exact .inl (congrArg Json.uint64 value.toUInt64_toInt64.symm)

end Json

namespace Simdjson

/-- Values of `simdjson::error_code`; `parse` stands for those of a document
that cannot be parsed. -/
inductive Error
  | parse (message : Bytes)
  | incorrectType
  | noSuchField
  | numberOutOfRange
  | indexOutOfBounds
  deriving DecidableEq

/-- `simdjson` as the source uses it.  An accessor succeeds on the values it is
for; the code it gives on the others is left open. -/
structure Library where
  parse : Bytes → Except Error Json
  isObject : Json → Bool
  field : Json → String → Except Error Json
  getString : Json → Except Error Bytes
  getBool : Json → Except Error Bool
  getUint64 : Json → Except Error UInt64
  getInt64 : Json → Except Error Int64
  getArray : Json → Except Error (List Json)
  elementAt : List Json → Nat → Except Error Json
  isObject_iff {json : Json} : isObject json = true ↔ json.IsObject
  field_eq_ok_iff {json content : Json} {key : String} :
    field json key = .ok content ↔ json.FirstField key content
  getString_eq_ok_iff {json : Json} {text : Bytes} :
    getString json = .ok text ↔ json = .string text
  getBool_eq_ok_iff {json : Json} {value : Bool} : getBool json = .ok value ↔ json = .bool value
  getUint64_eq_ok_iff {json : Json} {number : UInt64} :
    getUint64 json = .ok number ↔ json.IsUnsigned number
  getInt64_eq_ok_iff {json : Json} {number : Int64} :
    getInt64 json = .ok number ↔ json.IsSigned number
  getArray_eq_ok_iff {json : Json} {elements : List Json} :
    getArray json = .ok elements ↔ json = .array elements
  elementAt_eq_ok_iff {elements : List Json} {index : Nat} {element : Json} :
    elementAt elements index = .ok element ↔ elements[index]? = some element

namespace Library

/-- The library with the error codes of its documentation. -/
def documented (parse : Bytes → Except Error Json) : Library where
  parse
  isObject
    | .object _ => true
    | _ => false
  field json key :=
    match json with
    | .object fields =>
        match fields.lookup (ascii key) with
        | some value => .ok value
        | none => .error .noSuchField
    | _ => .error .incorrectType
  getString
    | .string value => .ok value
    | _ => .error .incorrectType
  getBool
    | .bool value => .ok value
    | _ => .error .incorrectType
  getUint64
    | .uint64 value => .ok value
    | .int64 value => if value < 0 then .error .numberOutOfRange else .ok value.toUInt64
    | _ => .error .incorrectType
  getInt64
    | .int64 value => .ok value
    | .uint64 value =>
        if value.toNat < 2 ^ 63 then .ok value.toInt64 else .error .numberOutOfRange
    | _ => .error .incorrectType
  getArray
    | .array elements => .ok elements
    | _ => .error .incorrectType
  elementAt elements index :=
    match elements[index]? with
    | some element => .ok element
    | none => .error .indexOutOfBounds
  isObject_iff {json} := by cases json <;> simp [Json.IsObject]
  field_eq_ok_iff {json content key} := by
    cases json with
    | object fields =>
        simp only [Json.FirstField, Json.object.injEq, exists_eq_left']
        cases fields.lookup (ascii key) <;> simp
    | _ => simp [Json.FirstField]
  getString_eq_ok_iff {json text} := by cases json <;> simp
  getBool_eq_ok_iff {json value} := by cases json <;> simp
  getUint64_eq_ok_iff {json number} := by
    cases json with
    | int64 value =>
        by_cases negative : value < 0
        · have notNonnegative : ¬ 0 ≤ value := Int64.not_le.mpr negative
          simp [Json.IsUnsigned, negative, notNonnegative]
        · have nonnegative : 0 ≤ value := Int64.not_lt.mp negative
          simp [Json.IsUnsigned, negative, nonnegative]
    | _ => simp [Json.IsUnsigned]
  getInt64_eq_ok_iff {json number} := by
    cases json with
    | uint64 value =>
        simp only [Json.IsSigned, reduceCtorEq, false_or, Json.uint64.injEq, exists_eq_left']
        split
        next small => simp only [Except.ok.injEq, small, true_and]
        next large => simp only [reduceCtorEq, large, false_and]
    | _ => simp [Json.IsSigned]
  getArray_eq_ok_iff {json elements} := by cases json <;> simp
  elementAt_eq_ok_iff {elements index element} := by cases elements[index]? <;> simp

/-- The library when no text can be parsed. -/
def unreadable : Library :=
  .documented fun _ => .error (.parse [])

/-- Reading a field through an accessor. -/
theorem field_bind_eq_ok_iff (simdjson : Library) {Value : Type}
    {read : Json → Except Error Value} {describes : Json → Value → Prop}
    (reads : ∀ {content : Json} {value : Value}, read content = .ok value ↔
      describes content value) {json : Json} {key : String} {value : Value} :
    (simdjson.field json key >>= read) = .ok value ↔
      ∃ content, json.FirstField key content ∧ describes content value := by
  simp only [bind_eq_ok_iff, simdjson.field_eq_ok_iff, reads]

variable (simdjson : Library) {json : Json} {key : String}

theorem field_getString_eq_ok_iff {text : Bytes} :
    (simdjson.field json key >>= simdjson.getString) = .ok text ↔
      json.FirstField key (.string text) := by
  rw [simdjson.field_bind_eq_ok_iff simdjson.getString_eq_ok_iff]
  exact exists_eq_right

theorem field_getArray_eq_ok_iff {elements : List Json} :
    (simdjson.field json key >>= simdjson.getArray) = .ok elements ↔
      json.FirstField key (.array elements) := by
  rw [simdjson.field_bind_eq_ok_iff simdjson.getArray_eq_ok_iff]
  exact exists_eq_right

end Library

end Simdjson

/-- How a parsing function ends without a result: with one of the exceptions
it throws, or because an integer operation leaves its 64-bit type. -/
inductive Fault
  | invalidArgument (message : String)
  | outOfRange (message : String)
  | jsonSyntax
  | simdjson (error : Simdjson.Error)
  | overflow
  deriving DecidableEq

/-- Use of an accessor whose error is thrown as `simdjson_error`. -/
def orThrow {Value : Type} : Except Simdjson.Error Value → Except Fault Value
  | .ok value => .ok value
  | .error error => .error (.simdjson error)

theorem orThrow_eq_ok_iff {Value : Type} {result : Except Simdjson.Error Value}
    {value : Value} : orThrow result = .ok value ↔ result = .ok value := by
  cases result <;> simp [orThrow]

theorem lookup_eq_some_iff {Key Value : Type*} [BEq Key] [LawfulBEq Key]
    {fields : List (Key × Value)} (distinct : (fields.map Prod.fst).Nodup)
    (key : Key) (value : Value) :
    fields.lookup key = some value ↔ (key, value) ∈ fields := by
  induction fields with
  | nil => simp
  | cons field fields ih =>
      obtain ⟨name, content⟩ := field
      rw [List.map_cons, List.nodup_cons] at distinct
      rw [List.lookup_cons, List.mem_cons, Prod.mk.injEq]
      by_cases equal : key = name
      · subst equal
        have absent : (key, value) ∉ fields := fun member =>
          distinct.1 (List.mem_map.mpr ⟨(key, value), member, rfl⟩)
        simp [absent, eq_comm]
      · simp [equal, ih distinct.2, beq_false_of_ne equal]

namespace BoostJson

/-- The last field of this name. -/
def lastField (fields : List (Bytes × Json)) (key : String) : Option Json :=
  fields.reverse.lookup (ascii key)

/-- Without duplicate keys the last field of a name is the first. -/
theorem lastField_eq_lookup {fields : List (Bytes × Json)}
    (distinct : (fields.map Prod.fst).Nodup) (key : String) :
    lastField fields key = fields.lookup (ascii key) := by
  have reversed : (fields.reverse.map Prod.fst).Nodup := by
    rw [List.map_reverse]
    exact List.nodup_reverse.mpr distinct
  apply Option.ext
  intro value
  rw [lastField, lookup_eq_some_iff reversed, lookup_eq_some_iff distinct, List.mem_reverse]

/-- `boost::json` as the source uses it. -/
structure Library where
  parse : Bytes → Except Fault Json
  ifContains : List (Bytes × Json) → String → Option Json
  /-- Of equal keys in a document the object holds the last one. -/
  ifContains_eq (fields : List (Bytes × Json)) (key : String) :
    ifContains fields key = lastField fields key

/-- The library with `if_contains` as documented. -/
def Library.documented (parse : Bytes → Except Fault Json) : Library where
  parse
  ifContains := lastField
  ifContains_eq _ _ := rfl

end BoostJson

end ExchangeConnectivity
