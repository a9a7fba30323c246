import ExchangeConnectivity.BinanceOrderGateway

/-!
# Reading order responses

The spot client and the gateway read the same responses with different
accessors and different status tables.  They agree on all responses but the
accepted ones whose status is `EXPIRED` or empty.  The spot client's check for
unknown statuses of cancelled orders never fires, because `toOrderStatus`
falls back to `New`.
-/

namespace ExchangeConnectivity

open ByteStrings FailingComputations

variable {simdjson : Simdjson.Library}

theorem getJsonString_default (json : Json) (key : String) :
    BinanceOrderGateway.getJsonString simdjson json key =
      (BinanceSpotClient.getJsonString simdjson json key []).2 := by
  unfold BinanceOrderGateway.getJsonString BinanceSpotClient.getJsonString
  rcases simdjson.field json key >>= simdjson.getString with error | value <;> rfl

theorem getJsonInt64_default (json : Json) (key : String) :
    BinanceOrderGateway.getJsonInt64 simdjson json key =
      (BinanceSpotClient.getJsonInt64 simdjson json key 0).2 := by
  unfold BinanceOrderGateway.getJsonInt64 BinanceSpotClient.getJsonInt64
  rcases simdjson.field json key >>= simdjson.getInt64 with error | value <;> rfl

theorem getJsonUint64_default (json : Json) (key : String) :
    BinanceOrderGateway.getJsonUint64 simdjson json key =
      (BinanceSpotClient.getJsonUint64 simdjson json key 0).2 := by
  unfold BinanceOrderGateway.getJsonUint64 BinanceSpotClient.getJsonUint64
  rcases simdjson.field json key >>= simdjson.getUint64 with error | value
  · rcases simdjson.field json key >>= simdjson.getInt64 with error | signedValue
    · rfl
    · by_cases nonnegative : signedValue ≥ 0 <;> simp [nonnegative]
  · rfl

/-- An accessor that fails leaves the initial value. -/
theorem getJsonString_failed {json : Json} {key : String} {output : Bytes}
    (failed : (BinanceSpotClient.getJsonString simdjson json key output).1 = false) :
    (BinanceSpotClient.getJsonString simdjson json key output).2 = output := by
  revert failed
  unfold BinanceSpotClient.getJsonString
  rcases simdjson.field json key >>= simdjson.getString with error | value
  · exact fun _ => rfl
  · exact fun failed => by cases failed

theorem getJsonUint64_failed {json : Json} {key : String} {output : UInt64}
    (failed : (BinanceSpotClient.getJsonUint64 simdjson json key output).1 = false) :
    (BinanceSpotClient.getJsonUint64 simdjson json key output).2 = output := by
  revert failed
  unfold BinanceSpotClient.getJsonUint64
  rcases simdjson.field json key >>= simdjson.getUint64 with error | value
  · rcases simdjson.field json key >>= simdjson.getInt64 with error | signedValue
    · exact fun _ => rfl
    · by_cases nonnegative : signedValue ≥ 0 <;> simp [nonnegative]
  · exact fun failed => by cases failed

theorem getJsonString_eq_true_iff {json : Json} {key : String} {output value : Bytes} :
    BinanceSpotClient.getJsonString simdjson json key output = (true, value) ↔
      json.FirstField key (.string value) := by
  rw [← simdjson.field_getString_eq_ok_iff, BinanceSpotClient.getJsonString]
  cases simdjson.field json key >>= simdjson.getString <;> simp

/-- Where `get_uint64` fails, `get_int64` finds no number that is not negative. -/
theorem getJsonUint64_eq_true_iff {json : Json} {key : String} {output number : UInt64} :
    BinanceSpotClient.getJsonUint64 simdjson json key output = (true, number) ↔
      ∃ content, json.FirstField key content ∧ content.IsUnsigned number := by
  have unsigned {value : UInt64} :
      (simdjson.field json key >>= simdjson.getUint64) = .ok value ↔
        ∃ content, json.FirstField key content ∧ content.IsUnsigned value :=
    simdjson.field_bind_eq_ok_iff simdjson.getUint64_eq_ok_iff
  rw [← unsigned, BinanceSpotClient.getJsonUint64]
  cases read : simdjson.field json key >>= simdjson.getUint64 with
  | ok value => simp
  | error error =>
      cases readSigned : simdjson.field json key >>= simdjson.getInt64 with
      | error error => simp
      | ok value =>
          have negative : ¬ value ≥ 0 := by
            intro nonnegative
            obtain ⟨content, found, isSigned⟩ :=
              (simdjson.field_bind_eq_ok_iff simdjson.getInt64_eq_ok_iff).mp readSigned
            have readAgain := unsigned.mpr ⟨content, found, isSigned.isUnsigned nonnegative⟩
            rw [read] at readAgain
            cases readAgain
          simp [negative]

/-- A response with a status from 200 to 299 whose body is a JSON object with
a nonzero unsigned `orderId` and this string as its `status`. -/
structure AcceptedOrder (simdjson : Simdjson.Library)
    (response : HttpResponse) (exchangeOrderId : UInt64) (status : Bytes) : Prop where
  success : 200 ≤ response.status ∧ response.status < 300
  body : ∃ json, simdjson.parse response.body = .ok json ∧
    (∃ orderId, json.FirstField "orderId" orderId ∧ orderId.IsUnsigned exchangeOrderId) ∧
      json.FirstField "status" (.string status)
  nonzero : exchangeOrderId ≠ 0

theorem AcceptedOrder.status_eq {response : HttpResponse} {firstId secondId : UInt64}
    {firstStatus secondStatus : Bytes}
    (first : AcceptedOrder simdjson response firstId firstStatus)
    (second : AcceptedOrder simdjson response secondId secondStatus) :
    firstStatus = secondStatus := by
  obtain ⟨firstJson, firstParsed, -, firstFound⟩ := first.body
  obtain ⟨secondJson, secondParsed, -, secondFound⟩ := second.body
  rw [firstParsed] at secondParsed
  cases secondParsed
  exact Json.string.inj (firstFound.unique secondFound)

namespace BinanceSpotClient

section

variable {response : HttpResponse}

theorem acceptedObject_ok_iff {invalid rejected : Bytes} {json : Json} :
    acceptedObject simdjson response invalid rejected = .ok json ↔
      simdjson.parse response.body = .ok json ∧ json.IsObject ∧
        200 ≤ response.status ∧ response.status < 300 := by
  unfold acceptedObject
  rw [← simdjson.isObject_iff]
  cases simdjson.parse response.body with
  | error error => simp
  | ok document =>
      by_cases object : simdjson.isObject document = true
      · by_cases failed : response.status < 200 ∨ response.status ≥ 300
        · have outside : ¬ (200 ≤ response.status ∧ response.status < 300) := by omega
          simp only [object, not_true, if_false, if_pos failed, reduceCtorEq, false_iff]
          exact fun all => outside all.2.2
        · have inside : 200 ≤ response.status ∧ response.status < 300 := by omega
          simp only [object, not_true, if_false, if_neg failed, Except.ok.injEq]
          constructor
          · rintro rfl
            exact ⟨rfl, object, inside⟩
          · exact fun all => all.1
      · simp only [object]
        constructor
        · intro equal
          cases equal
        · rintro ⟨same, isObject, -⟩
          cases same
          exact absurd isObject object

theorem orderIdAndStatus_ok_iff {json : Json} {missing status : Bytes}
    {exchangeOrderId : UInt64} :
    orderIdAndStatus simdjson json missing = .ok (exchangeOrderId, status) ↔
      (∃ orderId, json.FirstField "orderId" orderId ∧ orderId.IsUnsigned exchangeOrderId) ∧
        json.FirstField "status" (.string status) ∧ exchangeOrderId ≠ 0 := by
  have number := @getJsonUint64_eq_true_iff simdjson json "orderId" 0 exchangeOrderId
  have text := @getJsonString_eq_true_iff simdjson json "status" [] status
  rw [← number, ← text]
  unfold orderIdAndStatus
  obtain ⟨hasOrderId, orderId⟩ := getJsonUint64 simdjson json "orderId" 0
  obtain ⟨hasStatus, text⟩ := getJsonString simdjson json "status" []
  cases hasOrderId <;> cases hasStatus <;> by_cases zero : orderId = 0 <;> simp [zero]
  · rintro rfl _
    rfl
  · rintro rfl _
    exact zero

end

end BinanceSpotClient

/-- The same category of failure, under the names of the two clients. -/
def SameCategory : BinanceSpotClient.BinanceApiErrorCode →
    BinanceOrderGateway.OrderSubmissionErrorCode → Prop
  | .invalidResponse, .invalidResponse => True
  | .exchangeRejected, .exchangeRejected => True
  | _, _ => False

/-- Both succeed with one submission, or both fail with one category and one
exchange error code. -/
def SameOutcome : BinanceSpotClient.OrderResponse →
    BinanceOrderGateway.SubmissionResponse → Prop
  | .ok first, .ok second => first = second
  | .error first, .error second =>
      SameCategory first.code second.code ∧
        first.exchangeErrorCode = second.exchangeErrorCode
  | _, _ => False

section Agreement

variable (simdjson)
variable (errorMessage : Simdjson.Error → Bytes)
variable (response : HttpResponse) (clientOrderId : UInt64)

/-- Where the spot client misses a field, the gateway reads a default value. -/
theorem orderIdAndStatus_missing {json : Json} (missing : Bytes)
    (notBoth : ∀ exchangeOrderId status,
      BinanceSpotClient.orderIdAndStatus simdjson json missing ≠ .ok (exchangeOrderId, status)) :
    BinanceSpotClient.orderIdAndStatus simdjson json missing =
        .error (BinanceSpotClient.makeError .invalidResponse missing) ∧
      ((BinanceSpotClient.getJsonUint64 simdjson json "orderId" 0).2 = 0 ∨
        (BinanceSpotClient.getJsonString simdjson json "status" []).2 = []) := by
  have orderIdFailed := @getJsonUint64_failed simdjson json "orderId" 0
  have statusFailed := @getJsonString_failed simdjson json "status" []
  revert notBoth orderIdFailed statusFailed
  unfold BinanceSpotClient.orderIdAndStatus
  obtain ⟨hasOrderId, orderId⟩ := BinanceSpotClient.getJsonUint64 simdjson json "orderId" 0
  obtain ⟨hasStatus, status⟩ := BinanceSpotClient.getJsonString simdjson json "status" []
  intro notBoth orderIdFailed statusFailed
  by_cases fails : ¬ hasOrderId = true ∨ ¬ hasStatus = true ∨ orderId = 0
  · refine ⟨if_pos fails, ?_⟩
    rcases fails with noOrderId | noStatus | zero
    · exact Or.inl (orderIdFailed (Bool.not_eq_true _ ▸ noOrderId))
    · exact Or.inr (statusFailed (Bool.not_eq_true _ ▸ noStatus))
    · exact Or.inl zero
  · exact absurd (if_neg fails) (notBoth orderId status)

/-- The two clients agree on a response without an accepted order. -/
theorem sameOutcome_of_not_accepted
    (notAccepted : ∀ exchangeOrderId status,
      ¬ AcceptedOrder simdjson response exchangeOrderId status) :
    SameOutcome (BinanceSpotClient.parseOrderResponse simdjson response clientOrderId)
      (BinanceOrderGateway.parseResponse simdjson errorMessage response clientOrderId) := by
  unfold BinanceSpotClient.parseOrderResponse BinanceSpotClient.acceptedObject
    BinanceOrderGateway.parseResponse
  simp only [getJsonString_default, getJsonInt64_default, getJsonUint64_default]
  cases parsed : simdjson.parse response.body with
  | error error => exact ⟨trivial, rfl⟩
  | ok json =>
      by_cases object : simdjson.isObject json = true
      · by_cases failed : response.status < 200 ∨ response.status ≥ 300
        · simp only [object, not_true, if_false, if_pos failed, error_bind]
          exact ⟨trivial, rfl⟩
        · simp only [object, not_true, if_false, if_neg failed, ok_bind]
          have notBoth (exchangeOrderId : UInt64) (status : Bytes) :
              BinanceSpotClient.orderIdAndStatus simdjson json
                (ascii "Binance response does not contain orderId or status") ≠
                  .ok (exchangeOrderId, status) := by
            intro both
            obtain ⟨orderId, statusFound, nonzero⟩ :=
              BinanceSpotClient.orderIdAndStatus_ok_iff.mp both
            exact notAccepted exchangeOrderId status
              { success := by omega
                body := ⟨json, parsed, orderId, statusFound⟩
                nonzero }
          obtain ⟨spotFails, gatewayFails⟩ := orderIdAndStatus_missing simdjson _ notBoth
          rw [spotFails, error_bind, if_pos gatewayFails]
          exact ⟨trivial, rfl⟩
      · simp only [object]
        exact ⟨trivial, rfl⟩

variable {simdjson response}

/-- What the two clients make of an accepted order. -/
theorem parseOrderResponse_accepted {exchangeOrderId : UInt64} {status : Bytes}
    (accepted : AcceptedOrder simdjson response exchangeOrderId status) :
    BinanceSpotClient.parseOrderResponse simdjson response clientOrderId =
      .ok { clientOrderId, exchangeOrderId
            status := BinanceSpotClient.toOrderStatus status } := by
  obtain ⟨json, parsed, orderId, statusFound⟩ := accepted.body
  rw [BinanceSpotClient.parseOrderResponse,
    BinanceSpotClient.acceptedObject_ok_iff.mpr
      ⟨parsed, statusFound.isObject, accepted.success⟩, ok_bind,
    BinanceSpotClient.orderIdAndStatus_ok_iff.mpr ⟨orderId, statusFound, accepted.nonzero⟩]
  rfl

theorem parseResponse_accepted {exchangeOrderId : UInt64} {status : Bytes}
    (accepted : AcceptedOrder simdjson response exchangeOrderId status) :
    BinanceOrderGateway.parseResponse simdjson errorMessage response clientOrderId =
      if status = [] then
        .error (BinanceOrderGateway.makeError .invalidResponse
          (ascii "Binance response does not contain orderId or status"))
      else
        .ok { clientOrderId, exchangeOrderId
              status := BinanceOrderGateway.toOrderStatus status } := by
  obtain ⟨json, parsed, orderId, statusFound⟩ := accepted.body
  have object := simdjson.isObject_iff.mpr statusFound.isObject
  have orderIdRead := (@getJsonUint64_eq_true_iff simdjson json "orderId" 0 _).mpr orderId
  have statusRead := (@getJsonString_eq_true_iff simdjson json "status" [] _).mpr statusFound
  have success := accepted.success
  have inside : ¬ (response.status < 200 ∨ response.status ≥ 300) := by omega
  unfold BinanceOrderGateway.parseResponse
  simp only [parsed, object, not_true, if_false, if_neg inside, getJsonUint64_default,
    getJsonString_default, orderIdRead, statusRead, accepted.nonzero, false_or]

variable (simdjson response)

/-- The clients agree unless an accepted order has the status `EXPIRED` or an
empty one. -/
theorem orderResponses_agree_iff :
    SameOutcome (BinanceSpotClient.parseOrderResponse simdjson response clientOrderId)
        (BinanceOrderGateway.parseResponse simdjson errorMessage response clientOrderId) ↔
      ∀ exchangeOrderId status, AcceptedOrder simdjson response exchangeOrderId status →
        status ≠ ascii "EXPIRED" ∧ status ≠ [] := by
  by_cases anyAccepted : ∃ exchangeOrderId status,
      AcceptedOrder simdjson response exchangeOrderId status
  · obtain ⟨exchangeOrderId, status, accepted⟩ := anyAccepted
    have only : (∀ exchangeOrderId status,
        AcceptedOrder simdjson response exchangeOrderId status →
          status ≠ ascii "EXPIRED" ∧ status ≠ []) ↔
        status ≠ ascii "EXPIRED" ∧ status ≠ [] := by
      constructor
      · exact fun all => all exchangeOrderId status accepted
      · intro listed otherId other otherAccepted
        rwa [otherAccepted.status_eq accepted]
    rw [only, parseOrderResponse_accepted clientOrderId accepted,
      parseResponse_accepted errorMessage clientOrderId accepted]
    by_cases empty : status = []
    · rw [if_pos empty]
      simp [SameOutcome, empty]
    · rw [if_neg empty]
      simp only [SameOutcome, OrderSubmission.mk.injEq, true_and]
      rw [toOrderStatus_eq_iff]
      simp [empty]
  · have notAccepted : ∀ exchangeOrderId status,
        ¬ AcceptedOrder simdjson response exchangeOrderId status :=
      fun exchangeOrderId status accepted =>
        anyAccepted ⟨exchangeOrderId, status, accepted⟩
    constructor
    · intro _ exchangeOrderId status accepted
      exact absurd accepted (notAccepted exchangeOrderId status)
    · intro _
      exact sameOutcome_of_not_accepted simdjson errorMessage response clientOrderId
        notAccepted

end Agreement

/-! An order that expired at once: the spot client reports it as cancelled, the
gateway as new. -/

def expiredBody : Bytes :=
  ascii "\x7b\"orderId\":7,\"status\":\"EXPIRED\"\x7d"

def expiredJson : Json :=
  .object [(ascii "orderId", .int64 7), (ascii "status", .string (ascii "EXPIRED"))]

theorem orderResponses_disagree_expired :
    BinanceSpotClient.parseOrderResponse (.documented fun _ => .ok expiredJson)
        { status := 200, headers := [], body := expiredBody } 1 =
      .ok { clientOrderId := 1, exchangeOrderId := 7, status := .cancelled } ∧
    BinanceOrderGateway.parseResponse (.documented fun _ => .ok expiredJson) (fun _ => [])
        { status := 200, headers := [], body := expiredBody } 1 =
      .ok { clientOrderId := 1, exchangeOrderId := 7, status := .new } ∧
    ¬ SameOutcome
      (BinanceSpotClient.parseOrderResponse (.documented fun _ => .ok expiredJson)
        { status := 200, headers := [], body := expiredBody } 1)
      (BinanceOrderGateway.parseResponse (.documented fun _ => .ok expiredJson) (fun _ => [])
        { status := 200, headers := [], body := expiredBody } 1) := by
  have spot : BinanceSpotClient.parseOrderResponse (.documented fun _ => .ok expiredJson)
      { status := 200, headers := [], body := expiredBody } 1 =
      .ok { clientOrderId := 1, exchangeOrderId := 7, status := .cancelled } := by
    decide
  have gateway : BinanceOrderGateway.parseResponse (.documented fun _ => .ok expiredJson)
      (fun _ => []) { status := 200, headers := [], body := expiredBody } 1 =
      .ok { clientOrderId := 1, exchangeOrderId := 7, status := .new } := by
    decide
  refine ⟨spot, gateway, ?_⟩
  rw [spot, gateway]
  simp [SameOutcome]

/-- The statuses `toOrderStatus` names. -/
def namedStatuses : List Bytes :=
  [ascii "NEW", ascii "PARTIALLY_FILLED", ascii "FILLED", ascii "CANCELED",
    ascii "CANCELLED", ascii "EXPIRED", ascii "REJECTED"]

/-- The response to a cancellation is a success for a named status only, an
invalid response naming any other, and `New` for `NEW` only. -/
structure ChecksStatus (status : Bytes) (result : BinanceSpotClient.CancelResponse) :
    Prop where
  accepts_named : ∀ cancellation, result = .ok cancellation → status ∈ namedStatuses
  rejects_unnamed : status ∉ namedStatuses →
    result = .error (BinanceSpotClient.makeError .invalidResponse
      (ascii "Unknown Binance order status: " ++ status))
  new_named : ∀ cancellation, result = .ok cancellation →
    cancellation.status = .new → status = ascii "NEW"

theorem parseCancelResponse_accepted {response : HttpResponse} {exchangeOrderId : UInt64}
    {status : Bytes}
    (accepted : AcceptedOrder simdjson response exchangeOrderId status) :
    BinanceSpotClient.parseCancelResponse simdjson response =
      .ok { exchangeOrderId, status := BinanceSpotClient.toOrderStatus status } := by
  obtain ⟨json, parsed, orderId, statusFound⟩ := accepted.body
  rw [BinanceSpotClient.parseCancelResponse,
    BinanceSpotClient.acceptedObject_ok_iff.mpr
      ⟨parsed, statusFound.isObject, accepted.success⟩, ok_bind,
    BinanceSpotClient.orderIdAndStatus_ok_iff.mpr ⟨orderId, statusFound, accepted.nonzero⟩]
  rfl

theorem toOrderStatus_new {status : Bytes} (named : status ∈ namedStatuses)
    (new : BinanceSpotClient.toOrderStatus status = .new) : status = ascii "NEW" := by
  revert new
  simp only [namedStatuses, List.mem_cons, List.not_mem_nil, or_false] at named
  rcases named with rfl | rfl | rfl | rfl | rfl | rfl | rfl <;> decide

/-- The status of an accepted cancellation is checked exactly when it is one
of the named ones: `toOrderStatus` maps every other to `New`. -/
theorem cancelResponse_checksStatus_iff {response : HttpResponse} {exchangeOrderId : UInt64}
    {status : Bytes}
    (accepted : AcceptedOrder simdjson response exchangeOrderId status) :
    ChecksStatus status (BinanceSpotClient.parseCancelResponse simdjson response) ↔
      status ∈ namedStatuses := by
  rw [parseCancelResponse_accepted accepted]
  constructor
  · intro checks
    exact checks.accepts_named _ rfl
  · intro named
    refine ⟨fun _ _ => named, fun unnamed => absurd named unnamed, ?_⟩
    intro cancellation equal new
    cases equal
    exact toOrderStatus_new named new

def cancelJson (status : Bytes) : Json :=
  .object [(ascii "orderId", .int64 7), (ascii "status", .string status)]

def cancelResponse : HttpResponse :=
  { status := 200, headers := [], body := [] }

theorem cancelJson_accepted (status : Bytes) :
    AcceptedOrder (.documented fun _ => .ok (cancelJson status)) cancelResponse 7 status where
  success := by decide
  body := ⟨cancelJson status, rfl, ⟨.int64 7, ⟨_, rfl, rfl⟩, .inr ⟨7, rfl, by decide, rfl⟩⟩, _, rfl,
    rfl⟩
  nonzero := by decide

theorem cancelResponse_checksStatus_filled :
    ChecksStatus (ascii "FILLED")
      (BinanceSpotClient.parseCancelResponse
        (.documented fun _ => .ok (cancelJson (ascii "FILLED"))) cancelResponse) :=
  (cancelResponse_checksStatus_iff (cancelJson_accepted (ascii "FILLED"))).mpr (by decide)

/-- A cancellation still pending is reported as a new order. -/
theorem pendingCancel_reported_new :
    BinanceSpotClient.parseCancelResponse
        (.documented fun _ => .ok (cancelJson (ascii "PENDING_CANCEL"))) cancelResponse =
      .ok { exchangeOrderId := 7, status := .new } ∧
    ¬ ChecksStatus (ascii "PENDING_CANCEL")
      (BinanceSpotClient.parseCancelResponse
        (.documented fun _ => .ok (cancelJson (ascii "PENDING_CANCEL"))) cancelResponse) := by
  have reported : BinanceSpotClient.parseCancelResponse
      (.documented fun _ => .ok (cancelJson (ascii "PENDING_CANCEL"))) cancelResponse =
      .ok { exchangeOrderId := 7, status := .new } := by
    decide
  refine ⟨reported, ?_⟩
  intro checks
  have named := checks.accepts_named _ reported
  revert named
  decide

end ExchangeConnectivity
