import StoreFeed.Decimal.Binary64

/-!
# The shortest decimal that reads back

A finite double is written with the fewest significant digits whose decimal is closer to it than to
every other double; among decimals of that many digits, the one nearest to it. All of it is exact
arithmetic on natural numbers. Where the point goes and when an exponent is written is the choice of
a `Style`.
-/

namespace StoreFeed.Decimal

/-- The decimal `coefficient * 10 ^ exponent`. -/
structure Scientific where
  coefficient : Nat
  exponent : Int
deriving DecidableEq

/-- A positive double together with the interval of reals that are read as it, over one
denominator. -/
structure Rounding where
  low : Nat
  value : Nat
  high : Nat
  denominator : Nat
  /-- Whether the ends of the interval are read as the double too. -/
  closed : Bool

/-- The interval of reals that are read as `x`. Below a power of two the next double is only half as
far away. -/
def Rounding.of (x : Binary64) : Rounding :=
  let m := x.mantissa
  let low := if x.fraction = 0 ∧ 1 < x.exponentField then 4 * m - 1 else 4 * m - 2
  let q := x.exponent - 2
  let scale := Nat.pow 2 q.toNat
  { low := low * scale
    value := 4 * m * scale
    high := (4 * m + 2) * scale
    denominator := Nat.pow 2 (-q).toNat
    closed := m % 2 = 0 }

/-- Whether `coefficient * 10 ^ exponent` is read as the double. -/
def Rounding.contains (r : Rounding) (d : Scientific) : Bool :=
  let c := d.coefficient * Nat.pow 10 d.exponent.toNat * r.denominator
  let scale := Nat.pow 10 (-d.exponent).toNat
  if r.closed then r.low * scale ≤ c && c ≤ r.high * scale
  else r.low * scale < c && c < r.high * scale

/-- The least `j` with `value * 10 ^ j ≥ denominator`, searched from `j` on. -/
def leadingZeros (value denominator : Nat) : Nat → Nat → Nat
  | 0, j => j
  | fuel + 1, j =>
    if denominator ≤ value * Nat.pow 10 j then j
    else leadingZeros value denominator fuel (j + 1)

/-- The exponent `p` with `10 ^ (p - 1) ≤ value < 10 ^ p`. -/
def Rounding.magnitude (r : Rounding) : Int :=
  if r.denominator ≤ r.value then ((Nat.toDigits 10 (r.value / r.denominator)).length : Int)
  else 1 - (leadingZeros r.value r.denominator 400 0 : Int)

/-- The decimal of `digits` significant digits nearest to the double, if it is read as the double.
Of two decimals equally near, the one with the even last digit is taken. -/
def Rounding.nearest? (r : Rounding) (digits : Nat) : Option Scientific :=
  let e := r.magnitude - digits
  let num := r.value * Nat.pow 10 (-e).toNat
  let den := r.denominator * Nat.pow 10 e.toNat
  let below := num / den
  let rest := num % den
  let up := 2 * rest > den || (2 * rest = den && below % 2 = 1)
  let first : Scientific := ⟨if up then below + 1 else below, e⟩
  let second : Scientific := ⟨if up then below else below + 1, e⟩
  if r.contains first then some first
  else if r.contains second then some second
  else none

/-- Move zeros at the end of the coefficient into the exponent. -/
def Scientific.normalize (fuel : Nat) (d : Scientific) : Scientific :=
  match fuel with
  | 0 => d
  | fuel + 1 =>
    if d.coefficient ≠ 0 ∧ d.coefficient % 10 = 0 then
      Scientific.normalize fuel ⟨d.coefficient / 10, d.exponent + 1⟩
    else d

/-- The shortest decimal that is read as the double; seventeen digits always suffice. -/
def shortest (x : Binary64) : Scientific :=
  if x.mantissa = 0 then ⟨0, 0⟩
  else
    let r := Rounding.of x
    let hit := (List.range 17).findSome? fun n => r.nearest? (n + 1)
    (hit.getD ⟨r.value / r.denominator, 0⟩).normalize 20

/-- How a decimal is laid out: `0.d₁d₂… * 10 ^ point` is written without an exponent when `point` is
within the bounds. -/
structure Style where
  leastPoint : Int
  greatestPoint : Int
  /-- Whether a whole number keeps a zero after the point. -/
  pointZero : Bool

private def zeros (n : Nat) : List Char := List.replicate n '0'

/-- Lay out a decimal. -/
def Style.layout (style : Style) (d : Scientific) : List Char :=
  let digits := Nat.toDigits 10 d.coefficient
  let n : Int := digits.length
  let point := if d.coefficient = 0 then 1 else n + d.exponent
  if style.leastPoint ≤ point ∧ point ≤ style.greatestPoint then
    if point ≤ 0 then '0' :: '.' :: (zeros (-point).toNat ++ digits)
    else if point < n then digits.take point.toNat ++ '.' :: digits.drop point.toNat
    else digits ++ zeros (point - n).toNat ++ (if style.pointZero then ['.', '0'] else [])
  else
    let e := point - 1
    let mantissa := match digits with
      | first :: rest => first :: (if rest.isEmpty then [] else '.' :: rest)
      | [] => []
    mantissa ++ 'e' :: (if e < 0 then '-' else '+') :: Nat.toDigits 10 e.natAbs

/-- The text of a finite double. -/
def Style.render (style : Style) (x : Binary64) : List Char :=
  (if x.isNegative then ['-'] else []) ++ style.layout (shortest x)

end StoreFeed.Decimal
