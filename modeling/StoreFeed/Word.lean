import StoreFeed.Decimal.Natural

/-!
# Arithmetic on 64 bits

Offsets, lags and times are natural numbers of 64 bits. A sum or product that does not fit is an
`Overflow`, which ends whatever was being computed; differences stop at zero.
-/

namespace StoreFeed

/-- The operation whose result does not fit 64 bits. -/
inductive Overflow where
  | addition
  | multiplication
deriving DecidableEq

/-- The text shown to operators. -/
def Overflow.message : Overflow → String
  | .addition => "attempt to add with overflow"
  | .multiplication => "attempt to multiply with overflow"

namespace Word

open Decimal (maxWord64)

/-- The sum of two numbers. -/
def add (a b : Nat) : Except Overflow Nat :=
  if a + b ≤ maxWord64 then .ok (a + b) else .error .addition

/-- The product of two numbers. -/
def mul (a b : Nat) : Except Overflow Nat :=
  if a * b ≤ maxWord64 then .ok (a * b) else .error .multiplication

/-- The sum of a list, however large. -/
def total : List Nat → Nat
  | [] => 0
  | n :: ns => n + total ns

/-- The sum of a list. -/
def sum (ns : List Nat) : Except Overflow Nat :=
  if total ns ≤ maxWord64 then .ok (total ns) else .error .addition

/-- A number of 64 bits as a float. -/
def toFloat (n : Nat) : Float := (UInt64.ofNat n).toFloat

theorem add_eq_ok_iff {a b c : Nat} : add a b = .ok c ↔ a + b = c ∧ c ≤ maxWord64 := by
  unfold add
  split <;> simp <;> omega

end Word

end StoreFeed
