/-!
# Natural numbers in decimal

Reading back the digits of a natural number. Leading zeros are accepted here; formats that forbid
them say so themselves.
-/

namespace StoreFeed.Decimal

/-- Whether a character is one of the ten ASCII digits. -/
def isDigit (c : Char) : Bool := '0' ≤ c && c ≤ '9'

/-- The number that a non-empty string of digits stands for. -/
def natural? (digits : List Char) : Option Nat :=
  if digits ≠ [] ∧ digits.all isDigit then some (Nat.ofDigitChars 10 digits 0) else none

/-- As `natural?`, for numbers up to `bound` only. -/
def naturalUpTo? (bound : Nat) (digits : List Char) : Option Nat :=
  (natural? digits).filter (· ≤ bound)

/-- A number up to `bound`, where one plus sign in front is allowed. -/
def unsigned? (bound : Nat) (text : String) : Option Nat :=
  match text.toList with
  | '+' :: digits => naturalUpTo? bound digits
  | digits => naturalUpTo? bound digits

/-- The largest number of 32 bits. -/
def maxWord32 : Nat := 4294967295

/-- The largest number of 64 bits. -/
def maxWord64 : Nat := 18446744073709551615

end StoreFeed.Decimal
