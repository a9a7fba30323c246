import ExchangeConnectivity.OrderResponses

/-!
# What the response parsers accept

The three parsers of the spot client begin alike, so none of them succeeds
outside the statuses 200 to 299, and each carries the error code of a
rejection.  A list of balances is accepted element by element, and returned
whole or not at all.
-/

namespace ExchangeConnectivity

open ByteStrings FailingComputations

namespace BinanceSpotClient

variable {simdjson : Simdjson.Library} {response : HttpResponse}

/-- The error code of a rejection: the integer under `code`, or zero. -/
structure IsErrorCode (json : Json) (code : Int64) : Prop where
  present : ∀ content value, json.FirstField "code" content → content.IsSigned value →
    code = value
  absent : (¬ ∃ content value, json.FirstField "code" content ∧ content.IsSigned value) →
    code = 0

theorem isErrorCode_getJsonInt64 (json : Json) :
    IsErrorCode json (getJsonInt64 simdjson json "code" 0).2 := by
  have code {value : Int64} :
      (simdjson.field json "code" >>= simdjson.getInt64) = .ok value ↔
        ∃ content, json.FirstField "code" content ∧ content.IsSigned value :=
    simdjson.field_bind_eq_ok_iff simdjson.getInt64_eq_ok_iff
  cases read : simdjson.field json "code" >>= simdjson.getInt64 with
  | error error =>
      rw [getJsonInt64, read]
      constructor
      · intro content value found isSigned
        rw [code.mpr ⟨content, found, isSigned⟩] at read
        cases read
      · exact fun _ => rfl
  | ok number =>
      rw [getJsonInt64, read]
      constructor
      · intro content value found isSigned
        rw [code.mpr ⟨content, found, isSigned⟩] at read
        exact (Except.ok.inj read).symm
      · intro nothing
        obtain ⟨content, found, isSigned⟩ := code.mp read
        exact absurd ⟨content, number, found, isSigned⟩ nothing

/-- A result is never a success outside the statuses 200 to 299, and there an
object is a rejection with the error code of the object. -/
structure ChecksResponse {Result : Type} (simdjson : Simdjson.Library)
    (response : HttpResponse) (result : Except BinanceApiError Result) : Prop where
  success : ∀ value, result = .ok value → 200 ≤ response.status ∧ response.status < 300
  rejected : ¬ (200 ≤ response.status ∧ response.status < 300) →
    ∀ json, simdjson.parse response.body = .ok json → json.IsObject →
      ∃ error, result = .error error ∧ error.code = .exchangeRejected ∧
        IsErrorCode json error.exchangeErrorCode

/-- Whatever a parser does with the accepted object, its beginning checks the
response. -/
theorem checksResponse_of_acceptedObject {Result : Type} (invalid rejected : Bytes)
    (next : Json → Except BinanceApiError Result) :
    ChecksResponse simdjson response
      (acceptedObject simdjson response invalid rejected >>= next) := by
  constructor
  · intro value returned
    obtain ⟨json, accepted, -⟩ := bind_eq_ok_iff.mp returned
    exact (acceptedObject_ok_iff.mp accepted).2.2
  · intro outside json parsed object
    have failed : response.status < 200 ∨ response.status ≥ 300 := by omega
    have isObject := simdjson.isObject_iff.mpr object
    let message := (getJsonString simdjson json "msg" []).2
    refine ⟨makeError .exchangeRejected (if message = [] then rejected else message)
      (getJsonInt64 simdjson json "code" 0).2, ?_, rfl, isErrorCode_getJsonInt64 json⟩
    simp only [acceptedObject, parsed, isObject, not_true, if_false, if_pos failed, error_bind]
    rfl

/-- An element of the list of balances with its three strings. -/
structure IsBalance (element : Json) (balance : AssetBalance) : Prop where
  asset : element.FirstField "asset" (.string balance.asset)
  free : element.FirstField "free" (.string balance.free)
  locked : element.FirstField "locked" (.string balance.locked)

theorem parseBalance_eq_ok_iff {element : Json} {balance : AssetBalance} :
    parseBalance simdjson element = .ok balance ↔ IsBalance element balance := by
  obtain ⟨asset, free, locked⟩ := balance
  have text {key : String} {value : Bytes} :
      getJsonString simdjson element key [] = (true, value) ↔
        element.FirstField key (.string value) :=
    getJsonString_eq_true_iff
  have fields : IsBalance element ⟨asset, free, locked⟩ ↔
      getJsonString simdjson element "asset" [] = (true, asset) ∧
        getJsonString simdjson element "free" [] = (true, free) ∧
        getJsonString simdjson element "locked" [] = (true, locked) := by
    simp only [text]
    exact ⟨fun is => ⟨is.asset, is.free, is.locked⟩, fun ⟨a, f, l⟩ => ⟨a, f, l⟩⟩
  rw [fields, parseBalance]
  obtain ⟨hasAsset, readAsset⟩ := getJsonString simdjson element "asset" []
  obtain ⟨hasFree, readFree⟩ := getJsonString simdjson element "free" []
  obtain ⟨hasLocked, readLocked⟩ := getJsonString simdjson element "locked" []
  cases hasAsset <;> cases hasFree <;> cases hasLocked <;> simp

/-- The body is an object with this list of balances. -/
def HoldsBalances (simdjson : Simdjson.Library) (response : HttpResponse)
    (elements : List Json) : Prop :=
  ∃ json, simdjson.parse response.body = .ok json ∧ json.FirstField "balances" (.array elements)

/-- A list of balances is returned when every element is a balance, and holds
the elements in their order. -/
theorem parseBalancesResponse_eq_ok_iff {balances : List AssetBalance} :
    parseBalancesResponse simdjson response = .ok balances ↔
      (200 ≤ response.status ∧ response.status < 300) ∧
        ∃ elements, HoldsBalances simdjson response elements ∧
          List.Forall₂ IsBalance elements balances := by
  have element :
      (fun element balance => parseBalance simdjson element = .ok balance) = IsBalance := by
    funext element balance
    exact propext parseBalance_eq_ok_iff
  constructor
  · intro returned
    obtain ⟨json, accepted, returned⟩ := bind_eq_ok_iff.mp returned
    obtain ⟨parsed, object, inside⟩ := acceptedObject_ok_iff.mp accepted
    cases read : simdjson.field json "balances" >>= simdjson.getArray with
    | error error =>
        rw [read] at returned
        cases returned
    | ok elements =>
        rw [read] at returned
        rw [← element]
        exact ⟨inside, elements, ⟨json, parsed, simdjson.field_getArray_eq_ok_iff.mp read⟩,
          mapM_eq_ok_iff.mp returned⟩
  · rintro ⟨inside, elements, ⟨json, parsed, holds⟩, all⟩
    rw [← element] at all
    rw [parseBalancesResponse,
      acceptedObject_ok_iff.mpr ⟨parsed, holds.isObject, inside⟩, ok_bind,
      simdjson.field_getArray_eq_ok_iff.mpr holds]
    exact mapM_eq_ok_iff.mpr all

/-- The three parsers check the status, and the balances of an accepted
response are all returned, unchanged and in order, exactly when all are
well-formed. -/
theorem responseParsers_check (simdjson : Simdjson.Library)
    (response : HttpResponse) (clientOrderId : UInt64) :
    ChecksResponse simdjson response (parseOrderResponse simdjson response clientOrderId) ∧
      ChecksResponse simdjson response (parseCancelResponse simdjson response) ∧
      ChecksResponse simdjson response (parseBalancesResponse simdjson response) ∧
      ∀ balances, parseBalancesResponse simdjson response = .ok balances ↔
        (200 ≤ response.status ∧ response.status < 300) ∧
          ∃ elements, HoldsBalances simdjson response elements ∧
            List.Forall₂ IsBalance elements balances :=
  ⟨checksResponse_of_acceptedObject _ _ _, checksResponse_of_acceptedObject _ _ _,
    checksResponse_of_acceptedObject _ _ _, fun _ => parseBalancesResponse_eq_ok_iff⟩

end BinanceSpotClient

end ExchangeConnectivity
