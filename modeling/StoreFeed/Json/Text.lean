/-!
# JSON strings as text

What stands between the quotes of a JSON string is a sequence of pieces: characters as they are and
escapes, which name UTF-16 code units. Two escapes that form a surrogate pair name one character.
A string of characters needs every surrogate paired and no control character unescaped; a string
that stands for bytes may hold both, and encodes a lone surrogate in three bytes like any other code
point of its size.
-/

namespace StoreFeed.Json.Text

/-- One piece of a string as written. -/
inductive Piece where
  | raw (c : Char)
  /-- A UTF-16 code unit named by an escape. -/
  | escaped (unit : Nat)
deriving DecidableEq

/-! ## Writing -/

/-- The digits of hexadecimal numbers. -/
def hexDigit (n : Nat) : Char := (Nat.digitChar n)

/-- A character as it is written inside quotes. -/
def encodeChar (c : Char) : List Char :=
  if c = '"' then ['\\', '"']
  else if c = '\\' then ['\\', '\\']
  else if c = '\x08' then ['\\', 'b']
  else if c = '\x0c' then ['\\', 'f']
  else if c = '\n' then ['\\', 'n']
  else if c = '\r' then ['\\', 'r']
  else if c = '\t' then ['\\', 't']
  else if c.toNat < 0x20 then
    ['\\', 'u', '0', '0', hexDigit (c.toNat / 16), hexDigit (c.toNat % 16)]
  else [c]

/-- A text in quotes. -/
def quote (s : String) : List Char := '"' :: (s.toList.flatMap encodeChar ++ ['"'])

/-! ## Reading -/

/-- The value of a hexadecimal digit. -/
def hexValue? (c : Char) : Option Nat :=
  if '0' ≤ c ∧ c ≤ '9' then some (c.toNat - '0'.toNat)
  else if 'a' ≤ c ∧ c ≤ 'f' then some (c.toNat - 'a'.toNat + 10)
  else if 'A' ≤ c ∧ c ≤ 'F' then some (c.toNat - 'A'.toNat + 10)
  else none

/-- The code unit of an escape that is a single letter or mark. -/
def shortEscape? (c : Char) : Option Nat :=
  match c with
  | '"' => some 0x22
  | '\\' => some 0x5c
  | '/' => some 0x2f
  | 'b' => some 0x08
  | 'f' => some 0x0c
  | 'n' => some 0x0a
  | 'r' => some 0x0d
  | 't' => some 0x09
  | _ => none

/-- The pieces up to the closing quote, and what follows it. -/
def pieces? : List Char → Option (List Piece × List Char)
  | [] => none
  | '"' :: rest => some ([], rest)
  | '\\' :: 'u' :: a :: b :: c :: d :: rest => do
    let unit := (((← hexValue? a) * 16 + (← hexValue? b)) * 16 + (← hexValue? c)) * 16
      + (← hexValue? d)
    let (ps, rest) ← pieces? rest
    pure (.escaped unit :: ps, rest)
  | '\\' :: c :: rest => do
    let unit ← shortEscape? c
    let (ps, rest) ← pieces? rest
    pure (.escaped unit :: ps, rest)
  | c :: rest => do
    if c = '\\' then none
    let (ps, rest) ← pieces? rest
    pure (.raw c :: ps, rest)

/-- Whether a code unit opens a surrogate pair. -/
def isHighSurrogate (unit : Nat) : Bool := 0xD800 ≤ unit && unit ≤ 0xDBFF

/-- Whether a code unit closes a surrogate pair. -/
def isLowSurrogate (unit : Nat) : Bool := 0xDC00 ≤ unit && unit ≤ 0xDFFF

/-- The code points that pieces name; a surrogate that is not part of a pair stays as it is. -/
def codePoints : List Piece → List Nat
  | [] => []
  | .raw c :: rest => c.toNat :: codePoints rest
  | .escaped u :: .escaped v :: rest =>
    if isHighSurrogate u && isLowSurrogate v then
      (0x10000 + (u - 0xD800) * 0x400 + (v - 0xDC00)) :: codePoints rest
    else u :: codePoints (.escaped v :: rest)
  | .escaped u :: rest => u :: codePoints rest

/-- Whether no control character stands unescaped. -/
def noRawControl (ps : List Piece) : Bool :=
  ps.all fun p => match p with
    | .raw c => 0x20 ≤ c.toNat
    | .escaped _ => true

/-- The character of a code point, unless it is a surrogate. -/
def scalar? (n : Nat) : Option Char :=
  if h : n.isValidChar then some (Char.ofNatAux n h) else none

/-- The text that pieces stand for. -/
def text? (ps : List Piece) : Option String :=
  if noRawControl ps then (codePoints ps).mapM scalar? |>.map String.ofList else none

/-- A code point in one to four bytes. -/
def encodeCodePoint (n : Nat) : List UInt8 :=
  if n < 0x80 then [n.toUInt8]
  else if n < 0x800 then [(0xC0 + n / 0x40).toUInt8, (0x80 + n % 0x40).toUInt8]
  else if n < 0x10000 then
    [(0xE0 + n / 0x1000).toUInt8, (0x80 + n / 0x40 % 0x40).toUInt8, (0x80 + n % 0x40).toUInt8]
  else
    [(0xF0 + n / 0x40000).toUInt8, (0x80 + n / 0x1000 % 0x40).toUInt8,
      (0x80 + n / 0x40 % 0x40).toUInt8, (0x80 + n % 0x40).toUInt8]

/-- The bytes that pieces stand for. -/
def bytes (ps : List Piece) : List UInt8 := (codePoints ps).flatMap encodeCodePoint

end StoreFeed.Json.Text
