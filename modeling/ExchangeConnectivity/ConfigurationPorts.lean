import ExchangeConnectivity.ConfigurationParser
import ExchangeConnectivity.FailingComputations
import Mathlib.Data.Set.List

/-!
# Ports and versions of accepted configurations

The parser casts the numbers of a document to its own types without a check.
This file describes the documents it accepts, and shows that what it makes of
them is exact when nothing in them is changed by a cast.
-/

namespace ExchangeConnectivity

open ByteStrings DecimalNumerals FailingComputations

namespace ConfigurationParser

open ExchangeConnectivity.Configuration Nlohmann

/-- The number a value stands for. -/
def numberValue : Json → Option ℚ
  | .uint64 value => some (value.toNat : ℚ)
  | .int64 value => some (value.toInt : ℚ)
  | .double bits => doubleValue bits
  | _ => none

def field? (json : Json) (key : String) : Option Json :=
  match json with
  | .object fields => fields.lookup (ascii key)
  | _ => none

/-- The ports of one connector of a document. -/
def portOf (connector : Json) (part : String) : Option Json := do
  let endpoint ← field? connector part
  field? endpoint "port"

def connectorItems (document : Json) : List (Bytes × Json) :=
  match field? document "connectors" with
  | some connectors => namedItems connectors
  | none => []

def IsPort (json : Json) : Prop :=
  ∃ port : Nat, port ≤ 65535 ∧ numberValue json = some (port : ℚ)

/-- The version is the number one, and every port is one. -/
structure Exact (document : Json) : Prop where
  version : ∃ version, field? document "version" = some version ∧ numberValue version = some 1
  ports : ∀ item ∈ connectorItems document, ∀ part ∈ ["marketData", "orderEntry"],
    ∀ port, portOf item.2 part = some port → IsPort port

/-- What is accepted has the version and the ports of the document, and what is
not exact is rejected. -/
structure Faithful (document : Json) (result : Except ConfigurationError Configuration) :
    Prop where
  version : ∀ configuration, result = .ok configuration →
    ∃ version, field? document "version" = some version ∧ numberValue version = some 1
  ports : ∀ configuration, result = .ok configuration →
    ∀ named ∈ configuration.connectors, ∃ json, (named.1, json) ∈ connectorItems document ∧
      (portOf json "marketData").bind numberValue =
        some (named.2.marketData.endpoint.port.toNat : ℚ) ∧
      (portOf json "orderEntry").bind numberValue =
        some (named.2.orderEntry.endpoint.port.toNat : ℚ)
  rejects : ¬ Exact document → ∃ error, result = .error error

def HasField (json : Json) (key : String) (property : Json → Prop) : Prop :=
  ∃ value, field? json key = some value ∧ property value

def IsString (json : Json) : Prop :=
  ∃ value, json = .string value

def IsStrings (json : Json) : Prop :=
  ∃ elements, json = .array elements ∧ ∀ element ∈ elements, IsString element

structure CompleteEndpoint (json : Json) : Prop where
  host : HasField json "host" IsString
  port : HasField json "port" IsArithmetic

structure CompleteMarketData (json : Json) : Prop where
  transport : HasField json "transport" IsString
  endpoint : CompleteEndpoint json
  channels : HasField json "channels" IsStrings

structure CompleteOrderEntry (json : Json) : Prop where
  transport : HasField json "transport" IsString
  endpoint : CompleteEndpoint json

structure CompleteCredentials (json : Json) : Prop where
  apiKey : HasField json "apiKey" IsString
  secret : HasField json "secret" IsString

structure CompleteConnector (json : Json) : Prop where
  type : HasField json "type" IsString
  marketData : HasField json "marketData" CompleteMarketData
  orderEntry : HasField json "orderEntry" CompleteOrderEntry
  credentials : HasField json "credentials" CompleteCredentials
  instruments : HasField json "instruments" IsStrings

/-- All fields are there and of their kinds, and the cast of the version is
one. -/
structure Complete (nlohmann : Library) (document : Json) : Prop where
  version : HasField document "version" fun version => nlohmann.getInt version = .ok 1
  connectors : HasField document "connectors" fun connectors =>
    ∀ item ∈ namedItems connectors, CompleteConnector item.2

theorem field?_eq_some_iff {json value : Json} {key : String} :
    field? json key = some value ↔ json.FirstField key value := by
  cases json <;> simp [field?, Json.FirstField]

section Acceptance

variable (environment : Bytes → Option Bytes) {nlohmann : Library}

theorem atKey_eq_ok_iff {json value : Json} {key : String} :
    nlohmann.atKey json key = .ok value ↔ field? json key = some value := by
  rw [nlohmann.atKey_eq_ok_iff, field?_eq_some_iff]

theorem getAt_eq_ok_iff {Result : Type} {json : Json} {key : String}
    {get : Json → Except Exception Result} {result : Result} :
    nlohmann.getAt json key get = .ok result ↔
      HasField json key fun value => get value = .ok result := by
  simp only [Library.getAt, bind_eq_ok_iff, atKey_eq_ok_iff, HasField]

theorem succeeds_getAt_iff {Result : Type} {json : Json} {key : String}
    {get : Json → Except Exception Result} {property : Json → Prop}
    (succeeds : ∀ value, Succeeds (get value) ↔ property value) :
    Succeeds (nlohmann.getAt json key get) ↔ HasField json key property := by
  simp only [HasField, ← succeeds, Succeeds, getAt_eq_ok_iff]
  exact ⟨fun ⟨result, value, found, run⟩ => ⟨value, found, result, run⟩,
    fun ⟨value, found, result, run⟩ => ⟨result, value, found, run⟩⟩

variable (nlohmann)

theorem succeeds_getString_iff (json : Json) :
    Succeeds (nlohmann.getString json) ↔ IsString json := by
  simp only [Succeeds, IsString, nlohmann.getString_eq_ok_iff]

theorem succeeds_getStrings_iff (json : Json) :
    Succeeds (nlohmann.getStrings json) ↔ IsStrings json := by
  simp only [Succeeds, nlohmann.getStrings_eq_ok_iff]
  constructor
  · rintro ⟨texts, rfl⟩
    refine ⟨_, rfl, fun element member => ?_⟩
    obtain ⟨text, -, equal⟩ := List.mem_map.mp member
    exact ⟨text, equal.symm⟩
  · rintro ⟨elements, rfl, strings⟩
    have inRange : elements ∈ Set.range (List.map Json.string) := by
      rw [Set.range_list_map]
      intro element member
      obtain ⟨text, rfl⟩ := strings element member
      exact Set.mem_range_self text
    obtain ⟨texts, rfl⟩ := inRange
    exact ⟨texts, rfl⟩

theorem succeeds_getUint16_iff (json : Json) :
    Succeeds (nlohmann.getUint16 json) ↔ IsArithmetic json := by
  constructor
  · rintro ⟨port, run⟩
    obtain ⟨number, casts, -⟩ := nlohmann.getUint16_casts run
    cases casts <;> rfl
  · exact nlohmann.getUint16_total

theorem succeeds_parseEndpoint_iff (json : Json) :
    Succeeds (parseEndpoint nlohmann json) ↔ CompleteEndpoint json := by
  unfold parseEndpoint
  rw [succeeds_bind_iff fun _ _ => succeeds_map_iff,
    succeeds_getAt_iff (succeeds_getString_iff nlohmann),
    succeeds_getAt_iff (succeeds_getUint16_iff nlohmann)]
  exact ⟨fun ⟨host, port⟩ => ⟨host, port⟩, fun ⟨host, port⟩ => ⟨host, port⟩⟩

theorem succeeds_parseCredentials_iff (json : Json) :
    Succeeds (parseCredentials environment nlohmann json) ↔ CompleteCredentials json := by
  unfold parseCredentials
  rw [succeeds_bind_iff fun _ _ => succeeds_map_iff,
    succeeds_getAt_iff (succeeds_getString_iff nlohmann),
    succeeds_getAt_iff (succeeds_getString_iff nlohmann)]
  exact ⟨fun ⟨apiKey, secret⟩ => ⟨apiKey, secret⟩, fun ⟨apiKey, secret⟩ => ⟨apiKey, secret⟩⟩

theorem succeeds_parseMarketData_iff (json : Json) :
    Succeeds (parseMarketData nlohmann json) ↔ CompleteMarketData json := by
  unfold parseMarketData
  rw [succeeds_bind_iff fun _ _ => succeeds_bind_iff fun _ _ => succeeds_map_iff,
    succeeds_getAt_iff (succeeds_getString_iff nlohmann), succeeds_parseEndpoint_iff,
    succeeds_getAt_iff (succeeds_getStrings_iff nlohmann)]
  exact ⟨fun ⟨transport, endpoint, channels⟩ => ⟨transport, endpoint, channels⟩,
    fun ⟨transport, endpoint, channels⟩ => ⟨transport, endpoint, channels⟩⟩

theorem succeeds_parseOrderEntry_iff (json : Json) :
    Succeeds (parseOrderEntry nlohmann json) ↔ CompleteOrderEntry json := by
  unfold parseOrderEntry
  rw [succeeds_bind_iff fun _ _ => succeeds_map_iff,
    succeeds_getAt_iff (succeeds_getString_iff nlohmann),
    succeeds_parseEndpoint_iff]
  exact ⟨fun ⟨transport, endpoint⟩ => ⟨transport, endpoint⟩,
    fun ⟨transport, endpoint⟩ => ⟨transport, endpoint⟩⟩

theorem succeeds_parseConnector_iff (json : Json) :
    Succeeds (parseConnector environment nlohmann json) ↔ CompleteConnector json := by
  unfold parseConnector
  rw [succeeds_bind_iff fun _ _ => succeeds_bind_iff fun _ _ => succeeds_bind_iff fun _ _ =>
      succeeds_bind_iff fun _ _ => succeeds_map_iff,
    succeeds_getAt_iff (succeeds_getString_iff nlohmann),
    succeeds_getAt_iff (succeeds_parseMarketData_iff nlohmann),
    succeeds_getAt_iff (succeeds_parseOrderEntry_iff nlohmann),
    succeeds_getAt_iff (succeeds_parseCredentials_iff environment nlohmann),
    succeeds_getAt_iff (succeeds_getStrings_iff nlohmann)]
  constructor
  · rintro ⟨type, marketData, orderEntry, credentials, instruments⟩
    exact ⟨type, marketData, orderEntry, credentials, instruments⟩
  · rintro ⟨type, marketData, orderEntry, credentials, instruments⟩
    exact ⟨type, marketData, orderEntry, credentials, instruments⟩

/-- The documents the `try` block makes a configuration of. -/
theorem parseDocument_eq_ok_iff {document : Json} {configuration : Configuration} :
    parseDocument environment nlohmann document = .ok (.ok configuration) ↔
      HasField document "version" (fun version => nlohmann.getInt version = .ok 1) ∧
      HasField document "connectors" fun connectors =>
        (namedItems connectors).foldlM (addConnector environment nlohmann) ⟨[]⟩ =
          .ok configuration := by
  unfold parseDocument
  rw [bind_eq_ok_iff]
  constructor
  · rintro ⟨version, versionRun, rest⟩
    by_cases one : version = 1
    · subst one
      obtain ⟨connectors, connectorsRun, loop⟩ := bind_eq_ok_iff.mp rest
      obtain ⟨final, loopRun, equal⟩ := bind_eq_ok_iff.mp loop
      cases equal
      rw [nlohmann.items_eq] at loopRun
      exact ⟨getAt_eq_ok_iff.mp versionRun, connectors,
        atKey_eq_ok_iff.mp connectorsRun, loopRun⟩
    · rw [if_pos one] at rest
      cases rest
  · rintro ⟨version, connectors, found, loopRun⟩
    refine ⟨1, getAt_eq_ok_iff.mpr version, ?_⟩
    rw [if_neg (by decide), atKey_eq_ok_iff.mpr found, ok_bind, nlohmann.items_eq,
      loopRun]
    rfl

theorem exists_accepted_iff (document : Json) :
    (∃ configuration, parseDocument environment nlohmann document = .ok (.ok configuration)) ↔
      Complete nlohmann document := by
  have round : ∀ configuration item, Succeeds (addConnector environment nlohmann configuration
      item) ↔ CompleteConnector item.2 := fun configuration item =>
    succeeds_map_iff.trans (succeeds_parseConnector_iff environment nlohmann item.2)
  simp only [parseDocument_eq_ok_iff]
  constructor
  · rintro ⟨configuration, version, connectors, found, loopRun⟩
    exact ⟨version, connectors, found, (succeeds_foldlM_iff round).mp ⟨configuration, loopRun⟩⟩
  · rintro ⟨version, connectors, found, complete⟩
    obtain ⟨configuration, loopRun⟩ := (succeeds_foldlM_iff round).mpr complete
    exact ⟨configuration, version, connectors, found, loopRun⟩

theorem truncate_intCast (number : Int) : truncate number = number := by
  unfold truncate
  split
  · exact Int.floor_intCast number
  · exact Int.ceil_intCast number

/-- A number within the bounds is cast to itself. -/
theorem eq_of_casts {low high number other : Int} {json : Json}
    (casts : Casts low high json other) (value : numberValue json = some (number : ℚ))
    (bounds : low ≤ number ∧ number ≤ high) : other = number := by
  cases casts with
  | uint64 word => exact Int.cast_inj.mp (Option.some.inj value)
  | int64 word => exact Int.cast_inj.mp (Option.some.inj value)
  | bool word => cases value
  | double bits other truncates =>
      have cast := truncates number value
      rw [truncate_intCast] at cast
      exact cast bounds

theorem port_of_getUint16 {json : Json} {port : UInt16}
    (run : nlohmann.getUint16 json = .ok port) (isPort : IsPort json) :
    numberValue json = some (port.toNat : ℚ) := by
  obtain ⟨number, small, value⟩ := isPort
  obtain ⟨other, casts, rfl⟩ := nlohmann.getUint16_casts run
  have asInt : numberValue json = some ((number : Int) : ℚ) := value
  have cast : other = number := eq_of_casts casts asInt (by omega)
  have same : (UInt16.ofInt number).toNat = number := by
    rw [UInt16.ofInt, UInt16.toNat_ofNat']
    omega
  rw [value, cast, same]

theorem port_of_parseEndpoint {json : Json} {endpoint : Endpoint}
    (run : parseEndpoint nlohmann json = .ok endpoint) :
    HasField json "port" fun port => nlohmann.getUint16 port = .ok endpoint.port := by
  obtain ⟨host, -, rest⟩ := bind_eq_ok_iff.mp run
  obtain ⟨port, portRun, equal⟩ := bind_eq_ok_iff.mp rest
  cases equal
  exact getAt_eq_ok_iff.mp portRun

theorem port_of_parseMarketData {json : Json} {marketData : MarketData}
    (run : parseMarketData nlohmann json = .ok marketData) :
    HasField json "port" fun port => nlohmann.getUint16 port = .ok marketData.endpoint.port := by
  obtain ⟨transport, -, rest⟩ := bind_eq_ok_iff.mp run
  obtain ⟨endpoint, endpointRun, rest⟩ := bind_eq_ok_iff.mp rest
  obtain ⟨channels, -, equal⟩ := bind_eq_ok_iff.mp rest
  cases equal
  exact port_of_parseEndpoint nlohmann endpointRun

theorem port_of_parseOrderEntry {json : Json} {orderEntry : OrderEntry}
    (run : parseOrderEntry nlohmann json = .ok orderEntry) :
    HasField json "port" fun port => nlohmann.getUint16 port = .ok orderEntry.endpoint.port := by
  obtain ⟨transport, -, rest⟩ := bind_eq_ok_iff.mp run
  obtain ⟨endpoint, endpointRun, equal⟩ := bind_eq_ok_iff.mp rest
  cases equal
  exact port_of_parseEndpoint nlohmann endpointRun

/-- The port of a part of a connector is the cast of the one in the document. -/
def CastPort (json : Json) (part : String) (port : UInt16) : Prop :=
  ∃ value, portOf json part = some value ∧ nlohmann.getUint16 value = .ok port

theorem castPort_of_hasField {json : Json} {part : String} {port : UInt16}
    (found : HasField json part fun endpoint =>
      HasField endpoint "port" fun value => nlohmann.getUint16 value = .ok port) :
    CastPort nlohmann json part port := by
  obtain ⟨endpoint, partFound, value, portFound, run⟩ := found
  exact ⟨value, by rw [portOf, partFound]; exact portFound, run⟩

theorem castPorts_of_parseConnector {json : Json} {connector : Connector}
    (run : parseConnector environment nlohmann json = .ok connector) :
    CastPort nlohmann json "marketData" connector.marketData.endpoint.port ∧
      CastPort nlohmann json "orderEntry" connector.orderEntry.endpoint.port := by
  obtain ⟨type, -, rest⟩ := bind_eq_ok_iff.mp run
  obtain ⟨marketData, marketDataRun, rest⟩ := bind_eq_ok_iff.mp rest
  obtain ⟨orderEntry, orderEntryRun, rest⟩ := bind_eq_ok_iff.mp rest
  obtain ⟨credentials, -, rest⟩ := bind_eq_ok_iff.mp rest
  obtain ⟨instruments, -, equal⟩ := bind_eq_ok_iff.mp rest
  cases equal
  obtain ⟨market, marketFound, marketRun⟩ := getAt_eq_ok_iff.mp marketDataRun
  obtain ⟨order, orderFound, orderRun⟩ := getAt_eq_ok_iff.mp orderEntryRun
  exact ⟨castPort_of_hasField nlohmann ⟨market, marketFound, port_of_parseMarketData _ marketRun⟩,
    castPort_of_hasField nlohmann ⟨order, orderFound, port_of_parseOrderEntry _ orderRun⟩⟩

/-- Every connector of the configuration comes from one of the document. -/
theorem connector_of_accepted {connectors : Json} {configuration : Configuration}
    (run : (namedItems connectors).foldlM (addConnector environment nlohmann) ⟨[]⟩ =
      .ok configuration) :
    ∀ named ∈ configuration.connectors, ∃ json, (named.1, json) ∈ namedItems connectors ∧
      parseConnector environment nlohmann json = .ok named.2 := by
  apply foldlM_ok_induction run
  · simp
  · intro item member value next holds round named inNext
    obtain ⟨connector, connectorRun, equal⟩ := bind_eq_ok_iff.mp round
    have shape : value.emplace item.1 connector = next := Except.ok.inj equal
    subst shape
    unfold Configuration.emplace at inNext
    split at inNext
    · exact holds named inNext
    · rcases List.mem_append.mp inNext with old | new
      · exact holds named old
      · rw [List.mem_singleton] at new
        subst new
        exact ⟨item.2, member, connectorRun⟩

/-- An accepted document that is exact is taken over as it is. -/
theorem faithful_of_exact {document : Json} {configuration : Configuration} (exact : Exact document)
    (run : parseDocument environment nlohmann document = .ok (.ok configuration)) :
    ∀ named ∈ configuration.connectors, ∃ json, (named.1, json) ∈ connectorItems document ∧
      (portOf json "marketData").bind numberValue =
        some (named.2.marketData.endpoint.port.toNat : ℚ) ∧
      (portOf json "orderEntry").bind numberValue =
        some (named.2.orderEntry.endpoint.port.toNat : ℚ) := by
  obtain ⟨-, connectors, found, loopRun⟩ :=
    (parseDocument_eq_ok_iff environment nlohmann).mp run
  have itemsEq : connectorItems document = namedItems connectors := by rw [connectorItems, found]
  intro named member
  obtain ⟨json, inItems, connectorRun⟩ := connector_of_accepted environment nlohmann loopRun named
    member
  rw [← itemsEq] at inItems
  obtain ⟨⟨market, marketFound, marketRun⟩, order, orderFound, orderRun⟩ :=
    castPorts_of_parseConnector environment nlohmann connectorRun
  have marketIsPort := exact.ports _ inItems "marketData" (by decide) market marketFound
  have orderIsPort := exact.ports _ inItems "orderEntry" (by decide) order orderFound
  refine ⟨json, inItems, ?_, ?_⟩
  · rw [marketFound]
    exact port_of_getUint16 nlohmann marketRun marketIsPort
  · rw [orderFound]
    exact port_of_getUint16 nlohmann orderRun orderIsPort

end Acceptance

section Parse

variable (environment : Bytes → Option Bytes) (nlohmann : Library)
variable {path text : Bytes} {document : Json}

theorem parse_eq_ok_iff (parsed : nlohmann.parse text = .ok document)
    {configuration : Configuration} :
    parse environment nlohmann path (some text) = .ok configuration ↔
      parseDocument environment nlohmann document = .ok (.ok configuration) := by
  unfold parse
  simp only [parsed, ok_bind]
  cases run : parseDocument environment nlohmann document with
  | ok result => simp
  | error error => simp

/-- What the parser makes of a document is faithful, unless the document is
complete and a number in it is changed by its cast. -/
theorem configuration_faithful_iff (parsed : nlohmann.parse text = .ok document) :
    Faithful document (parse environment nlohmann path (some text)) ↔
      (Complete nlohmann document → Exact document) := by
  constructor
  · intro faithful complete
    by_contra inexact
    obtain ⟨configuration, run⟩ := (exists_accepted_iff environment nlohmann document).mpr complete
    obtain ⟨error, rejected⟩ := faithful.rejects inexact
    rw [(parse_eq_ok_iff environment nlohmann parsed).mpr run] at rejected
    cases rejected
  · intro exact
    have accepted : ∀ configuration,
        parse environment nlohmann path (some text) = .ok configuration →
          parseDocument environment nlohmann document = .ok (.ok configuration) ∧
            Exact document := by
      intro configuration result
      have run := (parse_eq_ok_iff environment nlohmann parsed).mp result
      exact ⟨run, exact ((exists_accepted_iff environment nlohmann document).mp ⟨_, run⟩)⟩
    constructor
    · intro configuration result
      exact (accepted configuration result).2.version
    · intro configuration result
      obtain ⟨run, isExact⟩ := accepted configuration result
      exact faithful_of_exact environment nlohmann isExact run
    · intro inexact
      cases result : parse environment nlohmann path (some text) with
      | ok configuration => exact absurd (accepted configuration result).2 inexact
      | error error => exact ⟨error, rfl⟩

end Parse

/-- A configuration document with one connector, whose market data port is left
open. -/
def testnetDocument (port : UInt64) : Json :=
  .object [(ascii "version", .uint64 1),
    (ascii "connectors", .object [(ascii "binance", .object [
      (ascii "type", .string (ascii "binance")),
      (ascii "marketData", .object [(ascii "transport", .string (ascii "websocket")),
        (ascii "host", .string (ascii "testnet-stream.binance.com")),
        (ascii "port", .uint64 port), (ascii "channels", .array [.string (ascii "depth")])]),
      (ascii "orderEntry", .object [(ascii "transport", .string (ascii "https")),
        (ascii "host", .string (ascii "testnet-api.binance.com")), (ascii "port", .uint64 443)]),
      (ascii "credentials", .object [(ascii "apiKey", .string (ascii "key")),
        (ascii "secret", .string (ascii "secret"))]),
      (ascii "instruments", .array [.string (ascii "BTCUSDT")])])])]

/-- The library on a file with this document. -/
def testnetLibrary (port : UInt64) : Library :=
  .documented (fun _ => 0) fun _ => .ok (testnetDocument port)

def testnetConfiguration (port : UInt16) : Configuration where
  connectors := [(ascii "binance", {
    type := ascii "binance"
    marketData := {
      transport := ascii "websocket"
      endpoint := { host := ascii "testnet-stream.binance.com", port }
      channels := [ascii "depth"] }
    orderEntry := {
      transport := ascii "https"
      endpoint := { host := ascii "testnet-api.binance.com", port := 443 } }
    credentials := { apiKey := ascii "key", secret := ascii "secret" }
    instruments := [ascii "BTCUSDT"] })]

theorem isPort_uint64_iff (port : UInt64) : IsPort (.uint64 port) ↔ port.toNat ≤ 65535 := by
  simp [IsPort, numberValue]

theorem exact_testnetDocument {port : UInt64} (small : port.toNat ≤ 65535) :
    Exact (testnetDocument port) := by
  refine ⟨⟨.uint64 1, rfl, by simp [numberValue]⟩, ?_⟩
  intro item member part isPart value found
  have items : connectorItems (testnetDocument port) = [_] := rfl
  rw [items, List.mem_singleton] at member
  subst member
  simp only [List.mem_cons, List.not_mem_nil, or_false] at isPart
  rcases isPart with rfl | rfl
  · cases found
    exact (isPort_uint64_iff port).mpr small
  · cases found
    exact (isPort_uint64_iff 443).mpr (by decide)

/-- A document with the port 9443 is taken over. -/
theorem configuration_faithful_testnet :
    Faithful (testnetDocument 9443)
      (parse (fun _ => none) (testnetLibrary 9443) (ascii "testnet.json") (some [])) :=
  (configuration_faithful_iff (fun _ => none) (testnetLibrary 9443) rfl).mpr fun _ =>
    exact_testnetDocument (by decide)

/-- The port 65979 comes out as 443. -/
theorem port_comes_out_as_443 :
    parse (fun _ => none) (testnetLibrary 65979) (ascii "testnet.json") (some []) =
        .ok (testnetConfiguration 443) ∧
      ¬ Faithful (testnetDocument 65979)
        (parse (fun _ => none) (testnetLibrary 65979) (ascii "testnet.json") (some [])) := by
  have accepted : parse (fun _ => none) (testnetLibrary 65979) (ascii "testnet.json") (some []) =
      .ok (testnetConfiguration 443) := by rfl
  refine ⟨accepted, fun faithful => ?_⟩
  have inexact : ¬ Exact (testnetDocument 65979) := by
    intro exact
    have isPort := exact.ports _ (List.mem_singleton_self _) "marketData" (by decide) _ rfl
    exact absurd ((isPort_uint64_iff 65979).mp isPort) (by decide)
  obtain ⟨error, rejected⟩ := faithful.rejects inexact
  rw [accepted] at rejected
  cases rejected

end ConfigurationParser

end ExchangeConnectivity
