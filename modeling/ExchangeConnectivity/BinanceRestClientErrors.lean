import ExchangeConnectivity.BinanceRestClient
import ExchangeConnectivity.FailingSteps
import ExchangeConnectivity.MarketDataParserAgreement

/-!
# The errors of a depth snapshot request

`getDepthSnapshot` should return the `RestError` of the first step that fails,
and a snapshot when none does.  It does so in every call whose first failing
step is neither the write nor the parse of the body: a failing write throws,
and no body makes the parser report an error of the client.
-/

namespace ExchangeConnectivity

open ByteStrings DecimalNumerals FailingComputations FailingSteps

namespace BinanceRestClient

open BinanceMarketDataParser
  (DepthSnapshot InRange OrderBookLevels arrayField_eq_ok_iff emplaceLevel parseLevel
    parseLevel_of_strings truncated uint64Field_eq_ok_iff)

/-- A decimal of the wire form whose hundred-millionths stay below `2 ^ 63`. -/
structure Amount where
  numeral : Numeral
  wireForm : numeral.WireForm
  inRange : InRange numeral

/-- The whole hundred-millionths of the amount. -/
def Amount.value (amount : Amount) : Int64 :=
  Int64.ofInt (truncated amount.numeral)

structure Level where
  price : Amount
  quantity : Amount

def Level.entry (level : Level) : Int64 × Int64 :=
  (level.price.value, level.quantity.value)

/-- The element is an array that begins with the two decimals as strings. -/
def Level.DescribedBy (level : Level) (element : Json) : Prop :=
  ∃ rest, element = .array
    (.string level.price.numeral.spelling :: .string level.quantity.numeral.spelling :: rest)

/-- What the document of a snapshot says. -/
structure Depth where
  lastUpdateId : UInt64
  bids : List Level
  asks : List Level

/-- The field is an array of elements that describe the levels. -/
def SideDescribedBy (levels : List Level) (document : Json) (key : String) : Prop :=
  ∃ elements, document.FirstField key (.array elements) ∧
    List.Forall₂ Level.DescribedBy levels elements

structure Depth.DescribedBy (depth : Depth) (document : Json) : Prop where
  lastUpdateId : ∃ number, document.FirstField "lastUpdateId" number ∧
    number.IsUnsigned depth.lastUpdateId
  bids : SideDescribedBy depth.bids document "bids"
  asks : SideDescribedBy depth.asks document "asks"

/-- The maps of the snapshot hold, for each price, the first quantity the
document gives for it. -/
structure Depth.HeldBy (depth : Depth) (snapshot : DepthSnapshot) : Prop where
  lastUpdateId : snapshot.lastUpdateId = depth.lastUpdateId
  bids : ∀ price : Int64, snapshot.bids[price]? = (depth.bids.map Level.entry).lookup price
  asks : ∀ price : Int64, snapshot.asks[price]? = (depth.asks.map Level.entry).lookup price

theorem parseDecimal_amount (amount : Amount) :
    BinanceMarketDataParser.parseDecimal amount.numeral.spelling = .ok amount.value := by
  rw [(BinanceMarketDataParser.parseDecimal_yieldsIf amount.wireForm).yields amount.inRange,
    Amount.value, truncated, truncate_value_scaled]

variable (simdjson : Simdjson.Library)

theorem parseLevel_of_describedBy {level : Level} {element : Json}
    (described : level.DescribedBy element) : parseLevel simdjson element = .ok level.entry := by
  obtain ⟨rest, pair⟩ := described
  rw [parseLevel_of_strings simdjson pair, BinanceMarketDataParser.parsePrice,
    parseDecimal_amount, ok_bind, BinanceMarketDataParser.parseQuantity, parseDecimal_amount,
    ok_bind, Level.entry]

/-- The loop over a side that describes levels fills a map with them. -/
theorem exists_levels_of_describedBy {levels : List Level} {document : Json} {key : String}
    (described : SideDescribedBy levels document key) :
    ∃ elements book,
      BinanceMarketDataParser.arrayField simdjson document key = .ok elements ∧
      elements.foldlM (emplaceLevel simdjson) (∅ : OrderBookLevels) = .ok book ∧
      ∀ price : Int64, book[price]? = (levels.map Level.entry).lookup price := by
  obtain ⟨elements, found, related⟩ := described
  have parsed : List.Forall₂ (fun element pair => parseLevel simdjson element = .ok pair)
      elements (levels.map Level.entry) := by
    rw [List.forall₂_map_right_iff]
    exact related.flip.imp fun _ _ => parseLevel_of_describedBy simdjson
  refine ⟨elements, _, (arrayField_eq_ok_iff simdjson).mpr found,
    foldlM_emplaceLevel simdjson parsed ∅, fun price => ?_⟩
  rw [getElem?_foldl_insertIfNew, Std.TreeMap.getElem?_emptyc, Option.none_or]

section Bodies

/-- The body is the text of a snapshot. -/
def WellFormed (body : Bytes) : Prop :=
  ∃ document depth, simdjson.parse body = .ok document ∧ Depth.DescribedBy depth document

/-- The snapshot is the one the body is the text of. -/
def SnapshotOf (body : Bytes) (snapshot : DepthSnapshot) : Prop :=
  ∃ document depth, simdjson.parse body = .ok document ∧ Depth.DescribedBy depth document ∧
    depth.HeldBy snapshot

variable {simdjson}

theorem parseDepthSnapshot_of_wellFormed {body : Bytes} (wellFormed : WellFormed simdjson body) :
    ∃ snapshot, BinanceMarketDataParser.parseDepthSnapshot simdjson body = .ok snapshot ∧
      SnapshotOf simdjson body snapshot := by
  obtain ⟨document, depth, parsed, described⟩ := wellFormed
  obtain ⟨bidElements, bids, bidsFound, bidsFilled, bidsHeld⟩ :=
    exists_levels_of_describedBy simdjson described.bids
  obtain ⟨askElements, asks, asksFound, asksFilled, asksHeld⟩ :=
    exists_levels_of_describedBy simdjson described.asks
  have documentRead : orThrow (simdjson.parse body) = .ok document := by
    rw [parsed]
    rfl
  have idRead := (uint64Field_eq_ok_iff simdjson).mpr described.lastUpdateId
  refine ⟨{ lastUpdateId := depth.lastUpdateId, bids, asks }, ?_,
    document, depth, parsed, described, rfl, bidsHeld, asksHeld⟩
  rw [BinanceMarketDataParser.parseDepthSnapshot, documentRead, ok_bind, idRead, ok_bind,
    bidsFound, ok_bind, bidsFilled, ok_bind, asksFound, ok_bind, asksFilled, ok_bind]
  rfl

end Bodies

inductive Step
  | resolve
  | connect
  | serverName
  | tlsHandshake
  | write
  | read
  | status
  | parse
  deriving DecidableEq

def Step.order : List Step :=
  [.resolve, .connect, .serverName, .tlsHandshake, .write, .read, .status, .parse]

def Step.error : Step → RestError
  | .resolve => .resolveFailed
  | .connect => .connectFailed
  | .serverName => .tlsServerNameFailed
  | .tlsHandshake => .tlsHandshakeFailed
  | .write => .writeFailed
  | .read => .readFailed
  | .status => .httpError
  | .parse => .parseFailed

section Calls

variable (beast : HttpExchange.Beast) (simdjson : Simdjson.Library)
  (network : Network)
variable (host symbol : Bytes) (limit : UInt64)

/-- What it takes for a step to succeed, once those before it have. -/
def Succeeds : Step → Prop
  | .resolve => ∃ endpoints, network.resolve host (ascii "443") = .ok endpoints
  | .connect => ∃ endpoints, network.resolve host (ascii "443") = .ok endpoints ∧
      network.connect endpoints = none
  | .serverName => network.setServerName host
  | .tlsHandshake => network.handshake = none
  | .write => network.write (depthRequest beast host symbol limit) = none
  | .read => ∃ response, network.read = .ok response
  | .status => ∃ body, network.read = .ok (200, body)
  | .parse => ∃ status body, network.read = .ok (status, body) ∧ WellFormed simdjson body

/-- The snapshot is that of the body the server sent. -/
def SnapshotReceived (snapshot : DepthSnapshot) : Prop :=
  ∃ status body, network.read = .ok (status, body) ∧ SnapshotOf simdjson body snapshot

variable {beast simdjson network host symbol limit}

/-- A read that succeeds is followed by the check of the status and the parse. -/
theorem readSnapshot_reports_iff :
    Reports (Succeeds beast simdjson network host symbol limit) Step.error
        (SnapshotReceived simdjson network) [.read, .status, .parse]
        (readSnapshot simdjson network) ↔
      ∀ step, FirstFailing (Succeeds beast simdjson network host symbol limit)
          [.read, .status, .parse] step →
        step ≠ .write ∧ step ≠ .parse := by
  rw [readSnapshot]
  refine reports_iff_cons (fun fails => ?_) fun succeeds => ?_
  · cases received : network.read with
    | ok response => exact absurd ⟨response, received⟩ fails
    | error errorCode => exact iff_of_true rfl (by decide)
  obtain ⟨⟨status, body⟩, received⟩ := succeeds
  rw [received]
  dsimp only
  refine reports_iff_cons (fun fails => ?_) fun succeeds => ?_
  · have refused : status ≠ 200 := by
      rintro rfl
      exact fails ⟨body, received⟩
    rw [if_pos refused]
    exact iff_of_true rfl (by decide)
  obtain ⟨sent, receivedAgain⟩ := succeeds
  rw [received] at receivedAgain
  cases receivedAgain
  rw [if_neg (not_not_intro rfl)]
  refine reports_iff_cons (fun fails => ?_) fun succeeds => ?_
  · -- The parser yields a snapshot or a fault, neither of them an error of the client.
    refine iff_of_false ?_ (by decide)
    cases BinanceMarketDataParser.parseDepthSnapshot simdjson body <;> nofun
  obtain ⟨status, sent, receivedAgain, wellFormed⟩ := succeeds
  rw [received] at receivedAgain
  cases receivedAgain
  obtain ⟨snapshot, parsed, snapshotOf⟩ := parseDepthSnapshot_of_wellFormed wellFormed
  rw [parsed]
  exact iff_of_true (reports_nil.mpr ⟨snapshot, rfl, 200, body, received, snapshotOf⟩)
    fun failing first => absurd first not_firstFailing_nil

variable (beast simdjson network host symbol limit)

/-- A call returns the error of its first failing step, or the snapshot it has
received if no step fails, exactly if its first failing step is neither the
write nor the parse. -/
theorem getDepthSnapshot_reports_iff :
    Reports (Succeeds beast simdjson network host symbol limit) Step.error
        (SnapshotReceived simdjson network) Step.order
        (getDepthSnapshot beast simdjson network host symbol limit) ↔
      ∀ step, FirstFailing (Succeeds beast simdjson network host symbol limit) Step.order step →
        step ≠ .write ∧ step ≠ .parse := by
  rw [Step.order, getDepthSnapshot]
  refine reports_iff_cons (fun fails => ?_) fun succeeds => ?_
  · cases resolved : network.resolve host (ascii "443") with
    | ok endpoints => exact absurd ⟨endpoints, resolved⟩ fails
    | error errorCode => exact iff_of_true rfl (by decide)
  obtain ⟨endpoints, resolved⟩ := succeeds
  rw [resolved]
  dsimp only
  refine reports_iff_cons (fun fails => ?_) fun succeeds => ?_
  · cases connected : network.connect endpoints with
    | none => exact absurd ⟨endpoints, resolved, connected⟩ fails
    | some errorCode => exact iff_of_true rfl (by decide)
  obtain ⟨found, resolvedAgain, connected⟩ := succeeds
  rw [resolved] at resolvedAgain
  cases resolvedAgain
  rw [connected]
  dsimp only
  refine reports_iff_cons (fun fails => ?_) fun named => ?_
  · have unnamed : ¬ network.setServerName host = true := fails
    rw [if_pos unnamed]
    exact iff_of_true rfl (by decide)
  have named : network.setServerName host = true := named
  rw [if_neg (not_not_intro named)]
  refine reports_iff_cons (fun fails => ?_) fun shaken => ?_
  · cases shaken : network.handshake with
    | none => exact absurd shaken fails
    | some errorCode => exact iff_of_true rfl (by decide)
  have shaken : network.handshake = none := shaken
  rw [shaken]
  dsimp only
  refine reports_iff_cons (fun fails => ?_) fun written => ?_
  · -- The failing write leaves the function by its exception.
    cases written : network.write (depthRequest beast host symbol limit) with
    | none => exact absurd written fails
    | some errorCode => exact iff_of_false nofun (by decide)
  have written : network.write (depthRequest beast host symbol limit) = none := written
  rw [written]
  exact readSnapshot_reports_iff

end Calls

/-! A broken pipe at the write, and an empty object as the body. -/

def brokenPipe : Network where
  resolve _ _ := .ok [ascii "192.0.2.1"]
  connect _ := none
  setServerName _ := true
  handshake := none
  write _ := some (ascii "Broken pipe")
  read := .error (ascii "Broken pipe")

def emptyObject : Network :=
  { brokenPipe with
    write := fun _ => none
    read := .ok (200, ascii "\x7b\x7d") }

theorem getDepthSnapshot_escapes :
    let beast := HttpExchange.Beast.simple
    let simdjson := Simdjson.Library.documented fun _ => .ok (.object [])
    let host := ascii "testnet.binance.vision"
    let symbol := ascii "BTCUSDT"
    getDepthSnapshot beast simdjson brokenPipe host symbol 1000 =
        .error (.systemError (ascii "Broken pipe")) ∧
      ¬ Reports (Succeeds beast simdjson brokenPipe host symbol 1000) Step.error
          (SnapshotReceived simdjson brokenPipe) Step.order
          (getDepthSnapshot beast simdjson brokenPipe host symbol 1000) ∧
      getDepthSnapshot beast simdjson emptyObject host symbol 1000 =
        .error (.parser (.simdjson .noSuchField)) ∧
      ¬ Reports (Succeeds beast simdjson emptyObject host symbol 1000) Step.error
          (SnapshotReceived simdjson emptyObject) Step.order
          (getDepthSnapshot beast simdjson emptyObject host symbol 1000) := by
  intro beast simdjson host symbol
  have throws : getDepthSnapshot beast simdjson brokenPipe host symbol 1000 =
      .error (.systemError (ascii "Broken pipe")) := rfl
  have malformed : getDepthSnapshot beast simdjson emptyObject host symbol 1000 =
      .error (.parser (.simdjson .noSuchField)) := rfl
  refine ⟨throws, ?_, malformed, ?_⟩
  · rw [throws]
    exact not_reports_exception _
  · rw [malformed]
    exact not_reports_exception _

end BinanceRestClient

end ExchangeConnectivity
