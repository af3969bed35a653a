/-!
# Finite binary floating-point numbers

A finite double is sign, mantissa and exponent of its bit pattern, so statements about it are
statements about natural numbers. Arithmetic is done on `Float`; this type is what documents hold
and what printers read.
-/

namespace StoreFeed

/-- How many values the stored part of a mantissa has: two to the power of fifty-two. -/
def Binary64.fractionSize : Nat := 4503599627370496

/-- A finite floating-point number of 64 bits. -/
structure Binary64 where
  /-- Sign bit, eleven exponent bits, fifty-two fraction bits. -/
  bits : UInt64
  finite : bits.toNat / Binary64.fractionSize % 2048 ≠ 2047
deriving DecidableEq

namespace Binary64

/-- Whether the sign bit is set. -/
def isNegative (x : Binary64) : Bool := 2048 * fractionSize ≤ x.bits.toNat

/-- The biased exponent. -/
def exponentField (x : Binary64) : Nat := x.bits.toNat / fractionSize % 2048

/-- The stored part of the mantissa. -/
def fraction (x : Binary64) : Nat := x.bits.toNat % fractionSize

/-- The absolute value is `mantissa * 2 ^ exponent`. -/
def mantissa (x : Binary64) : Nat :=
  if x.exponentField = 0 then x.fraction else fractionSize + x.fraction

/-- The absolute value is `mantissa * 2 ^ exponent`. -/
def exponent (x : Binary64) : Int :=
  (if x.exponentField = 0 then 1 else (x.exponentField : Int)) - 1075

/-- Equality of numbers: the two zeros are the same. -/
def same (x y : Binary64) : Bool :=
  x.bits == y.bits || (x.mantissa == 0 && y.mantissa == 0)

/-- The number as a machine float. -/
def toFloat (x : Binary64) : Float := Float.ofBits x.bits

/-- A machine float, if it is finite. -/
def ofFloat? (f : Float) : Option Binary64 :=
  if h : f.toBits.toNat / fractionSize % 2048 ≠ 2047 then some ⟨f.toBits, h⟩ else none

theorem same_self (x : Binary64) : x.same x = true := by simp [same]

theorem same_comm (x y : Binary64) : x.same y = y.same x := by
  rw [same, same, Bool.and_comm, BEq.comm (a := x.bits)]

end Binary64

end StoreFeed
