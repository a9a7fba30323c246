import ExchangeConnectivity.ConfigurationPorts

/-!
# Connectors by name

`Configuration::connector` of `configuration/configuration.hpp` on what the
parser has accepted: a name has the connector that the document describes under
it, with every text taken over, or the variable of the environment that it
names.
-/

namespace ExchangeConnectivity

open ByteStrings FailingComputations

/-- `connector(name)`; without a connector of the name `at` throws. -/
def Configuration.connector (configuration : Configuration) (name : Bytes) :
    Option Configuration.Connector :=
  configuration.connectors.lookup name

namespace ConfigurationParser

open ExchangeConnectivity.Configuration Nlohmann

/-- A text that names a variable of the environment as `$` and the name in
braces. -/
def NamesVariable (text name : Bytes) : Prop :=
  text = ascii "$\x7b" ++ name ++ ascii "\x7d"

section Descriptions

variable (environment : Bytes → Option Bytes) (nlohmann : Library)

/-- What a credential of the document stands for. -/
inductive StandsFor (text value : Bytes) : Prop
  | named (name : Bytes) (names : NamesVariable text name)
      (valueEq : value = (environment (name.takeWhile (· ≠ 0))).getD [])
  | literal (plain : ∀ name, ¬ NamesVariable text name) (valueEq : value = text)

/-- The texts of an array. -/
def IsTexts (json : Json) (texts : List Bytes) : Prop :=
  json = .array (texts.map .string)

structure DescribesEndpoint (json : Json) (endpoint : Endpoint) : Prop where
  host : field? json "host" = some (.string endpoint.host)
  port : HasField json "port" fun port => nlohmann.getUint16 port = .ok endpoint.port

structure DescribesMarketData (json : Json) (marketData : MarketData) : Prop where
  transport : field? json "transport" = some (.string marketData.transport)
  endpoint : DescribesEndpoint nlohmann json marketData.endpoint
  channels : HasField json "channels" fun channels => IsTexts channels marketData.channels

structure DescribesOrderEntry (json : Json) (orderEntry : OrderEntry) : Prop where
  transport : field? json "transport" = some (.string orderEntry.transport)
  endpoint : DescribesEndpoint nlohmann json orderEntry.endpoint

structure DescribesCredentials (json : Json) (credentials : Credentials) : Prop where
  apiKey : ∃ text, field? json "apiKey" = some (.string text) ∧
    StandsFor environment text credentials.apiKey
  secret : ∃ text, field? json "secret" = some (.string text) ∧
    StandsFor environment text credentials.secret

structure DescribesConnector (json : Json) (connector : Connector) : Prop where
  type : field? json "type" = some (.string connector.type)
  marketData : HasField json "marketData" fun part =>
    DescribesMarketData nlohmann part connector.marketData
  orderEntry : HasField json "orderEntry" fun part =>
    DescribesOrderEntry nlohmann part connector.orderEntry
  credentials : HasField json "credentials" fun part =>
    DescribesCredentials environment part connector.credentials
  instruments : HasField json "instruments" fun instruments =>
    IsTexts instruments connector.instruments

theorem getText_eq_ok_iff {nlohmann : Library} {json : Json} {key : String} {text : Bytes} :
    nlohmann.getAt json key nlohmann.getString = .ok text ↔
      field? json key = some (.string text) := by
  simp [getAt_eq_ok_iff, HasField, nlohmann.getString_eq_ok_iff]

theorem NamesVariable.resolve {text name : Bytes} (names : NamesVariable text name) :
    resolveEnvironmentVariable environment text =
      (environment (name.takeWhile (· ≠ 0))).getD [] := by
  have opens : ascii "$\x7b" <+: text := ⟨name ++ ascii "\x7d", by rw [names, List.append_assoc]⟩
  have closes : ascii "\x7d" <:+ text := ⟨ascii "$\x7b" ++ name, names.symm⟩
  have between : (text.drop 2).take (text.length - 3) = name := by
    have shape : text = 36 :: 123 :: (name ++ [125]) := names
    simp [shape]
  simp only [resolveEnvironmentVariable, List.isPrefixOf_iff_prefix, List.isSuffixOf_iff_suffix,
    opens, closes, not_true_eq_false, or_self, if_false, between]

theorem namesVariable_of_marks {text : Bytes} (opens : ascii "$\x7b" <+: text)
    (closes : ascii "\x7d" <:+ text) : ∃ name, NamesVariable text name := by
  obtain ⟨rest, rfl⟩ := opens
  rcases List.eq_nil_or_concat rest with rfl | ⟨name, last, rfl⟩
  · exact absurd closes (by decide)
  · obtain ⟨front, equal⟩ := closes
    rw [List.concat_eq_append, ← List.append_assoc] at equal
    obtain ⟨-, lastEq⟩ := List.append_inj_right' equal rfl
    exact ⟨name, by rw [NamesVariable, List.concat_eq_append, List.append_assoc]; rfl⟩

theorem resolve_of_plain {text : Bytes} (plain : ∀ name, ¬ NamesVariable text name) :
    resolveEnvironmentVariable environment text = text := by
  have unmarked : ¬ (ascii "$\x7b").isPrefixOf text ∨ ¬ (ascii "\x7d").isSuffixOf text := by
    by_contra marked
    push Not at marked
    obtain ⟨name, names⟩ := namesVariable_of_marks (List.isPrefixOf_iff_prefix.mp marked.1)
      (List.isSuffixOf_iff_suffix.mp marked.2)
    exact plain name names
  rw [resolveEnvironmentVariable, if_pos unmarked]

theorem resolveEnvironmentVariable_eq_iff {text value : Bytes} :
    resolveEnvironmentVariable environment text = value ↔ StandsFor environment text value := by
  constructor
  · rintro rfl
    by_cases named : ∃ name, NamesVariable text name
    · obtain ⟨name, names⟩ := named
      exact .named name names (names.resolve environment)
    · exact .literal (not_exists.mp named) (resolve_of_plain environment (not_exists.mp named))
  · intro standsFor
    cases standsFor with
    | named name names valueEq => rw [valueEq, names.resolve]
    | literal plain valueEq => rw [valueEq, resolve_of_plain environment plain]

theorem parseEndpoint_eq_ok_iff {json : Json} {endpoint : Endpoint} :
    parseEndpoint nlohmann json = .ok endpoint ↔ DescribesEndpoint nlohmann json endpoint := by
  unfold parseEndpoint
  constructor
  · intro run
    obtain ⟨host, hostRun, rest⟩ := bind_eq_ok_iff.mp run
    obtain ⟨port, portRun, equal⟩ := bind_eq_ok_iff.mp rest
    cases equal
    exact ⟨getText_eq_ok_iff.mp hostRun, getAt_eq_ok_iff.mp portRun⟩
  · intro describes
    rw [getText_eq_ok_iff.mpr describes.host, ok_bind, getAt_eq_ok_iff.mpr describes.port]
    rfl

theorem parseMarketData_eq_ok_iff {json : Json} {marketData : MarketData} :
    parseMarketData nlohmann json = .ok marketData ↔
      DescribesMarketData nlohmann json marketData := by
  unfold parseMarketData
  constructor
  · intro run
    obtain ⟨transport, transportRun, rest⟩ := bind_eq_ok_iff.mp run
    obtain ⟨endpoint, endpointRun, rest⟩ := bind_eq_ok_iff.mp rest
    obtain ⟨channels, channelsRun, equal⟩ := bind_eq_ok_iff.mp rest
    cases equal
    obtain ⟨value, found, texts⟩ := getAt_eq_ok_iff.mp channelsRun
    exact ⟨getText_eq_ok_iff.mp transportRun, (parseEndpoint_eq_ok_iff nlohmann).mp endpointRun,
      value, found, nlohmann.getStrings_eq_ok_iff.mp texts⟩
  · intro describes
    obtain ⟨value, found, texts⟩ := describes.channels
    have channels : nlohmann.getAt json "channels" nlohmann.getStrings = .ok marketData.channels :=
      getAt_eq_ok_iff.mpr ⟨value, found, nlohmann.getStrings_eq_ok_iff.mpr texts⟩
    rw [getText_eq_ok_iff.mpr describes.transport, ok_bind,
      (parseEndpoint_eq_ok_iff nlohmann).mpr describes.endpoint, ok_bind, channels]
    rfl

theorem parseOrderEntry_eq_ok_iff {json : Json} {orderEntry : OrderEntry} :
    parseOrderEntry nlohmann json = .ok orderEntry ↔
      DescribesOrderEntry nlohmann json orderEntry := by
  unfold parseOrderEntry
  constructor
  · intro run
    obtain ⟨transport, transportRun, rest⟩ := bind_eq_ok_iff.mp run
    obtain ⟨endpoint, endpointRun, equal⟩ := bind_eq_ok_iff.mp rest
    cases equal
    exact ⟨getText_eq_ok_iff.mp transportRun, (parseEndpoint_eq_ok_iff nlohmann).mp endpointRun⟩
  · intro describes
    rw [getText_eq_ok_iff.mpr describes.transport, ok_bind,
      (parseEndpoint_eq_ok_iff nlohmann).mpr describes.endpoint]
    rfl

theorem parseCredentials_eq_ok_iff {json : Json} {credentials : Credentials} :
    parseCredentials environment nlohmann json = .ok credentials ↔
      DescribesCredentials environment json credentials := by
  unfold parseCredentials
  constructor
  · intro run
    obtain ⟨apiKey, apiKeyRun, rest⟩ := bind_eq_ok_iff.mp run
    obtain ⟨secret, secretRun, equal⟩ := bind_eq_ok_iff.mp rest
    cases equal
    exact ⟨⟨apiKey, getText_eq_ok_iff.mp apiKeyRun,
        (resolveEnvironmentVariable_eq_iff environment).mp rfl⟩,
      secret, getText_eq_ok_iff.mp secretRun,
        (resolveEnvironmentVariable_eq_iff environment).mp rfl⟩
  · rintro ⟨⟨apiKey, apiKeyFound, apiKeyStands⟩, secret, secretFound, secretStands⟩
    rw [getText_eq_ok_iff.mpr apiKeyFound, ok_bind, getText_eq_ok_iff.mpr secretFound, ok_bind,
      (resolveEnvironmentVariable_eq_iff environment).mpr apiKeyStands,
      (resolveEnvironmentVariable_eq_iff environment).mpr secretStands]
    rfl

theorem parseConnector_eq_ok_iff {json : Json} {connector : Connector} :
    parseConnector environment nlohmann json = .ok connector ↔
      DescribesConnector environment nlohmann json connector := by
  unfold parseConnector
  constructor
  · intro run
    obtain ⟨type, typeRun, rest⟩ := bind_eq_ok_iff.mp run
    obtain ⟨marketData, marketDataRun, rest⟩ := bind_eq_ok_iff.mp rest
    obtain ⟨orderEntry, orderEntryRun, rest⟩ := bind_eq_ok_iff.mp rest
    obtain ⟨credentials, credentialsRun, rest⟩ := bind_eq_ok_iff.mp rest
    obtain ⟨instruments, instrumentsRun, equal⟩ := bind_eq_ok_iff.mp rest
    cases equal
    simp only [getAt_eq_ok_iff, parseMarketData_eq_ok_iff] at marketDataRun
    simp only [getAt_eq_ok_iff, parseOrderEntry_eq_ok_iff] at orderEntryRun
    simp only [getAt_eq_ok_iff, parseCredentials_eq_ok_iff] at credentialsRun
    simp only [getAt_eq_ok_iff, nlohmann.getStrings_eq_ok_iff] at instrumentsRun
    exact ⟨getText_eq_ok_iff.mp typeRun, marketDataRun, orderEntryRun, credentialsRun,
      instrumentsRun⟩
  · rintro ⟨type, marketData, orderEntry, credentials, instruments⟩
    simp only [← parseMarketData_eq_ok_iff, ← @getAt_eq_ok_iff nlohmann] at marketData
    simp only [← parseOrderEntry_eq_ok_iff, ← @getAt_eq_ok_iff nlohmann] at orderEntry
    simp only [← parseCredentials_eq_ok_iff environment nlohmann, ← @getAt_eq_ok_iff nlohmann]
      at credentials
    simp only [IsTexts, ← nlohmann.getStrings_eq_ok_iff, ← @getAt_eq_ok_iff nlohmann]
      at instruments
    rw [getText_eq_ok_iff.mpr type, ok_bind, marketData, ok_bind, orderEntry, ok_bind, credentials,
      ok_bind, instruments]
    rfl

theorem lookup_emplace (configuration : Configuration) (name other : Bytes)
    (connector : Connector) :
    (configuration.emplace other connector).connectors.lookup name =
      (configuration.connectors.lookup name).or
        (if name == other then some connector else none) := by
  unfold Configuration.emplace
  split
  · rename_i known
    by_cases same : name = other
    · rw [same, Option.or_of_isSome known]
    · simp [same]
  · rw [List.lookup_append, List.lookup_cons]
    cases name == other <;> rfl

/-- After the loop a name has the connector it had before, or that of the first
of the items. -/
theorem lookup_of_loop {configuration final : Configuration} {entries : List (Bytes × Json)}
    (run : entries.foldlM (addConnector environment nlohmann) configuration = .ok final)
    (name : Bytes) :
    final.connectors.lookup name = (configuration.connectors.lookup name).or
      ((entries.lookup name).bind fun json =>
        (parseConnector environment nlohmann json).toOption) := by
  induction entries generalizing configuration with
  | nil =>
      cases run
      simp
  | cons item entries ih =>
      rw [List.foldlM_cons] at run
      obtain ⟨next, round, others⟩ := bind_eq_ok_iff.mp run
      obtain ⟨connector, connectorRun, equal⟩ := bind_eq_ok_iff.mp round
      cases equal
      rw [ih others, lookup_emplace, Option.or_assoc, List.lookup_cons]
      cases name == item.1 with
      | true => simp [connectorRun, Except.toOption]
      | false => simp

/-- The parser has made a connector of every item of the document. -/
theorem describes_of_loop {configuration final : Configuration} {entries : List (Bytes × Json)}
    (run : entries.foldlM (addConnector environment nlohmann) configuration = .ok final)
    {name : Bytes} {json : Json} (found : entries.lookup name = some json) :
    ∃ connector, DescribesConnector environment nlohmann json connector := by
  obtain ⟨before, after, rfl, -⟩ := List.lookup_eq_some_iff.mp found
  have round : ∀ configuration item, Succeeds (addConnector environment nlohmann configuration
      item) ↔ Succeeds (parseConnector environment nlohmann item.2) := fun configuration item =>
    succeeds_map_iff
  obtain ⟨connector, connectorRun⟩ := (succeeds_foldlM_iff round).mp ⟨final, run⟩ _
    (List.mem_append_right before List.mem_cons_self)
  exact ⟨connector, (parseConnector_eq_ok_iff environment nlohmann).mp connectorRun⟩

end Descriptions

section Lookups

variable (environment : Bytes → Option Bytes) (nlohmann : Library)
variable {path text : Bytes} {document : Json}

/-- A name has the connector that the document describes under it, and none if
the document has none. -/
theorem connector_of_accepted_iff (parsed : nlohmann.parse text = .ok document)
    {configuration : Configuration}
    (accepted : parse environment nlohmann path (some text) = .ok configuration)
    (name : Bytes) :
    (∀ connector, configuration.connector name = some connector ↔
      ∃ json, (connectorItems document).lookup name = some json ∧
        DescribesConnector environment nlohmann json connector) ∧
    (configuration.connector name = none ↔ (connectorItems document).lookup name = none) := by
  have run := (parse_eq_ok_iff environment nlohmann parsed).mp accepted
  obtain ⟨-, connectors, found, loopRun⟩ := (parseDocument_eq_ok_iff environment nlohmann).mp run
  have itemsEq : connectorItems document = namedItems connectors := by rw [connectorItems, found]
  have lookupEq : configuration.connector name = (((connectorItems document).lookup name).bind
      fun json => (parseConnector environment nlohmann json).toOption) := by
    rw [itemsEq]
    exact lookup_of_loop environment nlohmann loopRun name
  rw [lookupEq]
  cases item : (connectorItems document).lookup name with
  | none => simp
  | some json =>
      obtain ⟨known, describes⟩ := describes_of_loop environment nlohmann loopRun
        (itemsEq ▸ item)
      have knownRun := (parseConnector_eq_ok_iff environment nlohmann).mpr describes
      have itemEq : (some json).bind (fun json =>
          (parseConnector environment nlohmann json).toOption) = some known := by
        rw [Option.bind_some, knownRun]
        rfl
      simp only [itemEq, ← parseConnector_eq_ok_iff, Option.some.injEq, exists_eq_left', knownRun,
        Except.ok.injEq, reduceCtorEq, implies_true, and_self]

/-- The testnet document describes the connector `binance`, and no other. -/
theorem connector_of_accepted_testnet :
    (∃ connector, (testnetConfiguration 9443).connector (ascii "binance") = some connector ∧
      ∃ json, (connectorItems (testnetDocument 9443)).lookup (ascii "binance") = some json ∧
        DescribesConnector (fun _ => none) (testnetLibrary 9443) json connector) ∧
    (testnetConfiguration 9443).connector (ascii "bybit") = none := by
  have accepted : parse (fun _ => none) (testnetLibrary 9443)
      (ascii "testnet.json") (some []) = .ok (testnetConfiguration 9443) := by rfl
  have binance := connector_of_accepted_iff (fun _ => none) (testnetLibrary 9443) rfl accepted
    (ascii "binance")
  have bybit := connector_of_accepted_iff (fun _ => none) (testnetLibrary 9443) rfl accepted
    (ascii "bybit")
  exact ⟨⟨_, rfl, (binance.1 _).mp rfl⟩, bybit.2.mpr rfl⟩

end Lookups

end ConfigurationParser

end ExchangeConnectivity
