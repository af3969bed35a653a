import StoreFeed.Decimal.Natural

/-!
# Reading decimal text as a float

A decimal is read as its digits taken as one whole number of 64 bits, converted to a float, and
then multiplied or divided by a power of ten. Digits beyond 64 bits are dropped. The result is the
nearest float for up to fifteen digits and moderate exponents; beyond that it may be one unit off,
which is why the rule is stated here and not as "the nearest float".
-/

namespace StoreFeed.Decimal

/-- The parts of a number as written: `whole` and `fraction` are digits. -/
structure Literal where
  negative : Bool
  whole : List Char
  fraction : List Char
  /-- Sign and digits of the exponent; `true` means negative. -/
  exponent : Option (Bool × List Char)
deriving DecidableEq

private def digitValue (c : Char) : Nat := c.toNat - '0'.toNat

/-- Digits of the whole part, taken while they fit 64 bits, and how many were left out. -/
def takeWhole : List Char → Nat × Nat → Nat × Nat
  | [], acc => acc
  | c :: rest, (n, dropped) =>
    let next := n * 10 + digitValue c
    if dropped = 0 ∧ next ≤ maxWord64 then takeWhole rest (next, 0)
    else takeWhole rest (n, dropped + 1)

/-- Digits of the fraction, taken while they fit 64 bits, and how many were taken. -/
def takeFraction : List Char → Nat × Nat → Nat × Nat
  | [], acc => acc
  | c :: rest, (n, taken) =>
    let next := n * 10 + digitValue c
    if next ≤ maxWord64 then takeFraction rest (next, taken + 1) else (n, taken)

/-- The largest power of ten that is a float. -/
def maxPower : Nat := 308

/-- Divide by `10 ^ e`, in steps of the largest power of ten. -/
def divideByPower : Nat → Float → Nat → Float
  | 0, f, _ => f
  | fuel + 1, f, e =>
    if e ≤ maxPower then f / Float.ofScientific 1 false e
    else if f == 0 then f
    else divideByPower fuel (f / Float.ofScientific 1 false maxPower) (e - maxPower)

/-- `significand * 10 ^ exponent`; none if that is beyond every float. -/
def scale? (significand : Nat) (exponent : Int) : Option Float :=
  let f := (UInt64.ofNat significand).toFloat
  if exponent < 0 then some (divideByPower 4 f exponent.natAbs)
  else if exponent.toNat ≤ maxPower then
    let g := f * Float.ofScientific 1 false exponent.toNat
    if g.isInf then none else some g
  else if significand = 0 then some f
  else none

/-- Exponents larger than this are not computed with. -/
def maxExponent : Nat := 2147483647

/-- The absolute value of a number as written; none if it is beyond every float. -/
def Literal.magnitude? (t : Literal) : Option Float :=
  let (n, dropped) := takeWhole t.whole (0, 0)
  let (n, taken) := takeFraction t.fraction (n, 0)
  let start : Int := dropped - taken
  match t.exponent with
  | none => scale? n start
  | some (negative, digits) =>
    let e := Nat.ofDigitChars 10 digits 0
    if maxExponent < e then if n ≠ 0 ∧ !negative then none else some 0
    else scale? n (if negative then start - e else start + e)

/-- The float that a number as written stands for; none if it is beyond every float. -/
def Literal.toFloat? (t : Literal) : Option Float :=
  t.magnitude?.map fun f => if t.negative then -f else f

end StoreFeed.Decimal
