import Mathlib.Data.List.Range

/-!
# Book updates

The objects the pools of `pools/main.cpp` hand out, and what the pools and the
benchmark do to one of them.
-/

namespace ExchangeConnectivity

namespace Pools

inductive Side
  | buy
  | sell
  deriving DecidableEq

structure PriceLevel where
  side : Side := .buy
  price : Int64 := 0
  quantity : Int64 := 0
  deriving DecidableEq

structure BookUpdate where
  exchangeTimestamp : UInt64 := 0
  firstSequence : UInt64 := 0
  lastSequence : UInt64 := 0
  updates : List PriceLevel := []
  deriving DecidableEq

namespace BookUpdate

/-- What `release` does to an object before it gives the index back. -/
def clear (update : BookUpdate) : BookUpdate :=
  { update with
    updates := []
    exchangeTimestamp := 0
    firstSequence := 0
    lastSequence := 0 }

/-- An object without updates and with all fields zero. -/
def Cleared (update : BookUpdate) : Prop :=
  update.updates = [] ∧ update.exchangeTimestamp = 0 ∧ update.firstSequence = 0 ∧
    update.lastSequence = 0

theorem cleared_iff (update : BookUpdate) : update.Cleared ↔ update = {} := by
  constructor
  · intro cleared
    cases update
    obtain ⟨rfl, rfl, rfl, rfl⟩ := cleared
    rfl
  · rintro rfl
    exact ⟨rfl, rfl, rfl, rfl⟩

end BookUpdate

end Pools

end ExchangeConnectivity
