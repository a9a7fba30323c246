import ExchangeConnectivity.CanonicalNumerals
import ExchangeConnectivity.JsonValues

/-!
# The configuration parser

`configuration/configuration_parser.cpp` reads a configuration through
`nlohmann::json`, which is a parameter.  That library keeps an object as a map,
so the fields of an object are here the entries of the map in their order.
-/

namespace ExchangeConnectivity

open ByteStrings DecimalNumerals FailingComputations

namespace Nlohmann

/-- An exception of the library, with its text. -/
structure Exception where
  what : Bytes

/-- The number a finite double stands for. -/
def doubleValue (bits : UInt64) : Option ℚ :=
  let exponent : Nat := bits.toNat / 2 ^ 52 % 2 ^ 11
  let mantissa : Nat := bits.toNat % 2 ^ 52
  let magnitude : ℚ :=
    if exponent = 0 then mantissa / 2 ^ 1074
    else (2 ^ 52 + mantissa) * 2 ^ exponent / 2 ^ 1075
  if exponent = 2047 then none
  else some (if 2 ^ 63 ≤ bits.toNat then -magnitude else magnitude)

/-- What `get` of an arithmetic type with these bounds converts to the type: a
double beyond them may become any number. -/
inductive Casts (low high : Int) : Json → Int → Prop
  | uint64 (value : UInt64) : Casts low high (.uint64 value) value.toNat
  | int64 (value : Int64) : Casts low high (.int64 value) value.toInt
  | bool (value : Bool) : Casts low high (.bool value) (if value then 1 else 0)
  | double (bits : UInt64) (number : Int)
      (truncates : ∀ value, doubleValue bits = some value →
        low ≤ truncate value ∧ truncate value ≤ high → number = truncate value) :
      Casts low high (.double bits) number

/-- A number or a boolean. -/
def IsArithmetic (json : Json) : Prop :=
  json matches .uint64 _ | .int64 _ | .double _ | .bool _

/-- The names and values that a loop over `items()` meets. -/
def namedItems : Json → List (Bytes × Json)
  | .object fields => fields
  | .array elements => elements.zipIdx.map fun element => (decimalBytes element.2, element.1)
  | .null => []
  | json => [([], json)]

/-- `nlohmann::json` as the source uses it; the texts of its exceptions are left
open. -/
structure Library where
  parse : Bytes → Except Exception Json
  atKey : Json → String → Except Exception Json
  getString : Json → Except Exception Bytes
  getStrings : Json → Except Exception (List Bytes)
  getUint16 : Json → Except Exception UInt16
  getInt : Json → Except Exception Int32
  items : Json → List (Bytes × Json)
  atKey_eq_ok_iff {json content : Json} {key : String} :
    atKey json key = .ok content ↔ json.FirstField key content
  getString_eq_ok_iff {json : Json} {text : Bytes} :
    getString json = .ok text ↔ json = .string text
  getStrings_eq_ok_iff {json : Json} {texts : List Bytes} :
    getStrings json = .ok texts ↔ json = .array (texts.map .string)
  getUint16_casts {json : Json} {value : UInt16} : getUint16 json = .ok value →
    ∃ number, Casts 0 (2 ^ 16 - 1) json number ∧ value = UInt16.ofInt number
  getUint16_total {json : Json} : IsArithmetic json → ∃ value, getUint16 json = .ok value
  getInt_casts {json : Json} {value : Int32} : getInt json = .ok value →
    ∃ number, Casts (-2 ^ 31) (2 ^ 31 - 1) json number ∧ value = Int32.ofInt number
  getInt_total {json : Json} : IsArithmetic json → ∃ value, getInt json = .ok value
  items_eq (json : Json) : items json = namedItems json

/-- `json.at(key).get<T>()`. -/
def Library.getAt (nlohmann : Library) {Result : Type} (json : Json) (key : String)
    (get : Json → Except Exception Result) : Except Exception Result := do
  let value ← nlohmann.atKey json key
  get value

namespace Documented

def typeName : Json → Bytes
  | .null => ascii "null"
  | .bool _ => ascii "boolean"
  | .int64 _ | .uint64 _ | .double _ => ascii "number"
  | .string _ => ascii "string"
  | .array _ => ascii "array"
  | .object _ => ascii "object"

def cannotUseAt (json : Json) : Exception where
  what := ascii "[json.exception.type_error.304] cannot use at() with " ++ typeName json

def keyNotFound (key : String) : Exception where
  what := ascii "[json.exception.out_of_range.403] key '" ++ ascii key ++ ascii "' not found"

def typeMustBe (expected : String) (json : Json) : Exception where
  what := ascii "[json.exception.type_error.302] type must be " ++ ascii expected ++
    ascii ", but is " ++ typeName json

def atKey (json : Json) (key : String) : Except Exception Json :=
  match json with
  | .object fields =>
      match fields.lookup (ascii key) with
      | some value => .ok value
      | none => .error (keyNotFound key)
  | _ => .error (cannotUseAt json)

def getString : Json → Except Exception Bytes
  | .string value => .ok value
  | json => .error (typeMustBe "string" json)

def getStrings : Json → Except Exception (List Bytes)
  | .array elements => elements.mapM getString
  | json => .error (typeMustBe "array" json)

/-- `static_cast` of a double to a type with these bounds, undefined outside of
them. -/
def castDouble (undefined : UInt64 → Int) (low high : Int) (bits : UInt64) : Int :=
  match doubleValue bits with
  | some number =>
      if low ≤ truncate number ∧ truncate number ≤ high then truncate number else undefined bits
  | none => undefined bits

def getArithmetic (undefined : UInt64 → Int) (low high : Int) : Json → Except Exception Int
  | .uint64 value => .ok value.toNat
  | .int64 value => .ok value.toInt
  | .double bits => .ok (castDouble undefined low high bits)
  | .bool value => .ok (if value then 1 else 0)
  | json => .error (typeMustBe "number" json)

def getUint16 (undefined : UInt64 → Int) (json : Json) : Except Exception UInt16 := do
  let value ← getArithmetic undefined 0 (2 ^ 16 - 1) json
  return UInt16.ofInt value

def getInt (undefined : UInt64 → Int) (json : Json) : Except Exception Int32 := do
  let value ← getArithmetic undefined (-2 ^ 31) (2 ^ 31 - 1) json
  return Int32.ofInt value

theorem getString_eq_ok_iff {json : Json} {text : Bytes} :
    getString json = .ok text ↔ json = .string text := by
  cases json <;> simp [getString]

theorem getStrings_eq_ok_iff {json : Json} {texts : List Bytes} :
    getStrings json = .ok texts ↔ json = .array (texts.map .string) := by
  cases json with
  | array elements =>
      have texts_eq : List.Forall₂ (fun element text => element = Json.string text) elements texts ↔
          elements = texts.map .string := by
        rw [← List.forall₂_eq_eq_eq, List.forall₂_map_right_iff]
      simp only [getStrings, mapM_eq_ok_iff, getString_eq_ok_iff, texts_eq, Json.array.injEq]
  | null | bool _ | int64 _ | uint64 _ | double _ | string _ | object _ => simp [getStrings]

variable {undefined : UInt64 → Int} {low high : Int} {json : Json}

theorem casts_of_getArithmetic {number : Int}
    (run : getArithmetic undefined low high json = .ok number) : Casts low high json number := by
  cases json with
  | uint64 value =>
      cases run
      exact .uint64 value
  | int64 value =>
      cases run
      exact .int64 value
  | bool value =>
      cases run
      exact .bool value
  | double bits =>
      cases run
      refine .double bits _ fun value finite bounds => ?_
      rw [castDouble, finite]
      exact if_pos bounds
  | null | string _ | array _ | object _ => cases run

theorem exists_getArithmetic (arithmetic : IsArithmetic json) :
    ∃ number, getArithmetic undefined low high json = .ok number := by
  cases json with
  | uint64 _ | int64 _ | bool _ | double _ => exact ⟨_, rfl⟩
  | null | string _ | array _ | object _ => cases arithmetic

end Documented

/-- The library with the texts of its documentation; an undefined cast has any
result. -/
def Library.documented (undefined : UInt64 → Int) (parse : Bytes → Except Exception Json) :
    Library where
  parse
  atKey := Documented.atKey
  getString := Documented.getString
  getStrings := Documented.getStrings
  getUint16 := Documented.getUint16 undefined
  getInt := Documented.getInt undefined
  items := namedItems
  atKey_eq_ok_iff {json content key} := by
    cases json with
    | object fields =>
        simp only [Documented.atKey, Json.FirstField, Json.object.injEq, exists_eq_left']
        cases fields.lookup (ascii key) <;> simp
    | null | bool _ | int64 _ | uint64 _ | double _ | string _ | array _ =>
        simp [Documented.atKey, Json.FirstField]
  getString_eq_ok_iff := Documented.getString_eq_ok_iff
  getStrings_eq_ok_iff := Documented.getStrings_eq_ok_iff
  getUint16_casts run := by
    obtain ⟨number, numberRun, equal⟩ := bind_eq_ok_iff.mp run
    exact ⟨number, Documented.casts_of_getArithmetic numberRun, (Except.ok.inj equal).symm⟩
  getUint16_total arithmetic := by
    obtain ⟨number, numberRun⟩ := Documented.exists_getArithmetic arithmetic
    exact ⟨_, bind_eq_ok_iff.mpr ⟨number, numberRun, rfl⟩⟩
  getInt_casts run := by
    obtain ⟨number, numberRun, equal⟩ := bind_eq_ok_iff.mp run
    exact ⟨number, Documented.casts_of_getArithmetic numberRun, (Except.ok.inj equal).symm⟩
  getInt_total arithmetic := by
    obtain ⟨number, numberRun⟩ := Documented.exists_getArithmetic arithmetic
    exact ⟨_, bind_eq_ok_iff.mpr ⟨number, numberRun, rfl⟩⟩
  items_eq _ := rfl

end Nlohmann

namespace Configuration

structure Endpoint where
  host : Bytes
  port : UInt16
  deriving DecidableEq

structure Credentials where
  apiKey : Bytes
  secret : Bytes
  deriving DecidableEq

structure MarketData where
  transport : Bytes
  endpoint : Endpoint
  channels : List Bytes
  deriving DecidableEq

structure OrderEntry where
  transport : Bytes
  endpoint : Endpoint
  deriving DecidableEq

structure Connector where
  type : Bytes
  marketData : MarketData
  orderEntry : OrderEntry
  credentials : Credentials
  instruments : List Bytes
  deriving DecidableEq

end Configuration

/-- The connectors by name, in the order of their insertion. -/
structure Configuration where
  connectors : List (Bytes × Configuration.Connector)
  deriving DecidableEq

namespace Configuration

/-- `connectors_.emplace`, which keeps a connector of the same name. -/
def emplace (configuration : Configuration) (name : Bytes) (connector : Connector) :
    Configuration :=
  if (configuration.connectors.lookup name).isSome then configuration
  else { connectors := configuration.connectors ++ [(name, connector)] }

end Configuration

structure ConfigurationError where
  message : Bytes
  deriving DecidableEq

namespace ConfigurationParser

open ExchangeConnectivity.Configuration Nlohmann

section Environment

variable (environment : Bytes → Option Bytes) (nlohmann : Library)

/-- `std::getenv` sees the name up to its first null character. -/
def resolveEnvironmentVariable (value : Bytes) : Bytes :=
  if ¬ (ascii "$\x7b").isPrefixOf value ∨ ¬ (ascii "\x7d").isSuffixOf value then value
  else
    let name := (value.drop 2).take (value.length - 3)
    (environment (name.takeWhile (· ≠ 0))).getD []

def parseEndpoint (json : Json) : Except Exception Endpoint := do
  let host ← nlohmann.getAt json "host" nlohmann.getString
  let port ← nlohmann.getAt json "port" nlohmann.getUint16
  return { host, port }

def parseCredentials (json : Json) : Except Exception Credentials := do
  let apiKey ← nlohmann.getAt json "apiKey" nlohmann.getString
  let secret ← nlohmann.getAt json "secret" nlohmann.getString
  return {
    apiKey := resolveEnvironmentVariable environment apiKey
    secret := resolveEnvironmentVariable environment secret }

def parseMarketData (json : Json) : Except Exception MarketData := do
  let transport ← nlohmann.getAt json "transport" nlohmann.getString
  let endpoint ← parseEndpoint nlohmann json
  let channels ← nlohmann.getAt json "channels" nlohmann.getStrings
  return { transport, endpoint, channels }

def parseOrderEntry (json : Json) : Except Exception OrderEntry := do
  let transport ← nlohmann.getAt json "transport" nlohmann.getString
  let endpoint ← parseEndpoint nlohmann json
  return { transport, endpoint }

def parseConnector (json : Json) : Except Exception Connector := do
  let type ← nlohmann.getAt json "type" nlohmann.getString
  let marketData ← nlohmann.getAt json "marketData" (parseMarketData nlohmann)
  let orderEntry ← nlohmann.getAt json "orderEntry" (parseOrderEntry nlohmann)
  let credentials ← nlohmann.getAt json "credentials" (parseCredentials environment nlohmann)
  let instruments ← nlohmann.getAt json "instruments" nlohmann.getStrings
  return { type, marketData, orderEntry, credentials, instruments }

/-- One round of the loop over the connectors. -/
def addConnector (configuration : Configuration) (item : Bytes × Json) :
    Except Exception Configuration := do
  let connector ← parseConnector environment nlohmann item.2
  return configuration.emplace item.1 connector

/-- The `try` block after the document has been parsed. -/
def parseDocument (json : Json) :
    Except Exception (Except ConfigurationError Configuration) := do
  let version ← nlohmann.getAt json "version" nlohmann.getInt
  if version ≠ 1 then
    return .error ⟨ascii "Unsupported configuration version"⟩
  let connectors ← nlohmann.atKey json "connectors"
  let configuration ← (nlohmann.items connectors).foldlM (addConnector environment nlohmann) ⟨[]⟩
  return .ok configuration

/-- `parse`; the content of the file, if it can be opened, is an argument. -/
def parse (path : Bytes) (file : Option Bytes) : Except ConfigurationError Configuration :=
  match file with
  | none => .error ⟨ascii "Unable to open configuration file: " ++ path⟩
  | some text =>
      match nlohmann.parse text >>= parseDocument environment nlohmann with
      | .ok result => result
      | .error error => .error ⟨ascii "Invalid configuration: " ++ error.what⟩

end Environment

end ConfigurationParser

end ExchangeConnectivity
