import ExchangeConnectivity.FailingComputations
import Mathlib.Algebra.Group.Int.Defs
import Mathlib.Algebra.Group.Nat.Defs
import Mathlib.Data.Int.Basic

/-!
# Exact results of 64-bit machine operations

A machine operation is represented by its exact integer result together with
a check that the result fits the machine type.  A computation assembled from
checked operations stops with the given failure at the first operation whose
exact result does not fit, so it yields a value only when no operation has
left its type.
-/

namespace FixedWidth

/-- The exact value of an operation fits a signed 64-bit integer. -/
def FitsInt64 (value : Int) : Prop :=
  -2 ^ 63 ≤ value ∧ value < 2 ^ 63

/-- The exact value of an operation fits an unsigned 64-bit integer. -/
def FitsUInt64 (value : Nat) : Prop :=
  value < 2 ^ 64

instance (value : Int) : Decidable (FitsInt64 value) :=
  inferInstanceAs (Decidable (_ ∧ _))

instance (value : Nat) : Decidable (FitsUInt64 value) :=
  inferInstanceAs (Decidable (_ < _))

open FailingComputations

variable {Failure : Type}

/-- A signed operation with this exact result. -/
def checkInt64 (overflow : Failure) (value : Int) : Except Failure Int :=
  if FitsInt64 value then .ok value else .error overflow

/-- An unsigned operation with this exact result. -/
def checkUInt64 (overflow : Failure) (value : Nat) : Except Failure Nat :=
  if FitsUInt64 value then .ok value else .error overflow

/-- Unsigned subtraction, which stays in its type exactly when it does not
go below zero. -/
def checkUInt64Sub (overflow : Failure) (minuend subtrahend : Nat) :
    Except Failure Nat :=
  if subtrahend ≤ minuend then .ok (minuend - subtrahend)
  else .error overflow

theorem checkInt64_of_fits {overflow : Failure} {value : Int}
    (fits : FitsInt64 value) : checkInt64 overflow value = .ok value :=
  if_pos fits

theorem checkUInt64_of_fits {overflow : Failure} {value : Nat}
    (fits : FitsUInt64 value) : checkUInt64 overflow value = .ok value :=
  if_pos fits

theorem checkUInt64Sub_of_le {overflow : Failure} {minuend subtrahend : Nat}
    (le : subtrahend ≤ minuend) :
    checkUInt64Sub overflow minuend subtrahend = .ok (minuend - subtrahend) :=
  if_pos le

theorem fitsInt64_toInt (value : Int64) : FitsInt64 value.toInt :=
  ⟨value.le_toInt, value.toInt_lt⟩

theorem toInt_ofInt {value : Int} (fits : FitsInt64 value) :
    (Int64.ofInt value).toInt = value :=
  Int64.toInt_ofInt_of_le fits.1 fits.2

end FixedWidth
