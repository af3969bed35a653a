import StoreFeed.Json.Text
import StoreFeed.Decimal.Reading

/-!
# JSON documents as written

A `Tree` keeps what a document says: members in their order and with repetitions, numbers digit by
digit, strings piece by piece. Reading into a tree needs no more than the grammar; what a number or
a string stands for, and whether a repeated member is allowed, is decided by whoever reads the
tree.
-/

namespace StoreFeed.Json

/-- A JSON document as written. -/
inductive Tree where
  | null
  | bool (b : Bool)
  | number (t : Decimal.Literal)
  | string (ps : List Text.Piece)
  | array (items : List Tree)
  | object (members : List (List Text.Piece × Tree))

namespace Tree

instance : Inhabited Tree := ⟨.null⟩

/-- Blank, tab, line feed and carriage return. -/
def isSpace (c : Char) : Bool := c = ' ' || c = '\n' || c = '\t' || c = '\r'

/-- Drop white space in front. -/
def skipSpace (s : List Char) : List Char := s.dropWhile isSpace

/-- Digits in front, and what follows them. -/
def spanDigits (s : List Char) : List Char × List Char := s.span Decimal.isDigit

/-- The digits after a point, if there is one. -/
def fraction? : List Char → Option (List Char × List Char)
  | '.' :: s =>
    let (digits, rest) := spanDigits s
    if digits.isEmpty then none else some (digits, rest)
  | s => some ([], s)

/-- The sign and digits of an exponent, if there is one. -/
def exponent? : List Char → Option (Option (Bool × List Char) × List Char)
  | e :: s =>
    if e = 'e' || e = 'E' then
      let (negative, s) := match s with
        | '-' :: s => (true, s)
        | '+' :: s => (false, s)
        | s => (false, s)
      let (digits, rest) := spanDigits s
      if digits.isEmpty then none else some (some (negative, digits), rest)
    else some (none, e :: s)
  | [] => some (none, [])

/-- A number in front. A whole part of several digits does not start with zero. -/
def number? (s : List Char) : Option (Decimal.Literal × List Char) := do
  let (negative, s) := match s with
    | '-' :: s => (true, s)
    | s => (false, s)
  let (whole, s) := spanDigits s
  match whole with
  | [] => none
  | '0' :: _ :: _ => none
  | _ =>
    let (frac, s) ← fraction? s
    let (exp, s) ← exponent? s
    pure (⟨negative, whole, frac, exp⟩, s)

/-- Drop a given word in front. -/
def word? : List Char → List Char → Option (List Char)
  | [], s => some s
  | w :: ws, c :: s => if w = c then word? ws s else none
  | _ :: _, [] => none

mutual

/-- A value in front; `fuel` bounds the number of nested calls. -/
def read? : Nat → List Char → Option (Tree × List Char)
  | 0, _ => none
  | fuel + 1, s =>
    match skipSpace s with
    | 'n' :: s => do pure (.null, ← word? ['u', 'l', 'l'] s)
    | 't' :: s => do pure (.bool true, ← word? ['r', 'u', 'e'] s)
    | 'f' :: s => do pure (.bool false, ← word? ['a', 'l', 's', 'e'] s)
    | '"' :: s => do
      let (ps, s) ← Text.pieces? s
      pure (.string ps, s)
    | '[' :: s =>
      match skipSpace s with
      | ']' :: s => some (.array [], s)
      | s => do
        let (items, s) ← items? fuel s
        pure (.array items, s)
    | '{' :: s =>
      match skipSpace s with
      | '}' :: s => some (.object [], s)
      | s => do
        let (members, s) ← members? fuel s
        pure (.object members, s)
    | s => do
      let (t, s) ← number? s
      pure (.number t, s)

/-- Items up to the closing bracket, at least one. -/
def items? : Nat → List Char → Option (List Tree × List Char)
  | 0, _ => none
  | fuel + 1, s => do
    let (t, s) ← read? fuel s
    match skipSpace s with
    | ']' :: s => some ([t], s)
    | ',' :: s =>
      let (ts, s) ← items? fuel s
      some (t :: ts, s)
    | _ => none

/-- Members up to the closing brace, at least one. -/
def members? : Nat → List Char → Option (List (List Text.Piece × Tree) × List Char)
  | 0, _ => none
  | fuel + 1, s =>
    match skipSpace s with
    | '"' :: s => do
      let (key, s) ← Text.pieces? s
      match skipSpace s with
      | ':' :: s =>
        let (t, s) ← read? fuel s
        match skipSpace s with
        | '}' :: s => some ([(key, t)], s)
        | ',' :: s =>
          let (ts, s) ← members? fuel s
          some ((key, t) :: ts, s)
        | _ => none
      | _ => none
    | _ => none

end

/-- The document that a text is. -/
def ofChars? (s : List Char) : Option Tree := do
  let (t, rest) ← read? (s.length + 1) s
  if (skipSpace rest).isEmpty then some t else none

/-- The document that a text is. -/
def ofString? (s : String) : Option Tree := ofChars? s.toList

/-- The document that bytes are; they have to be UTF-8. -/
def ofBytes? (b : ByteArray) : Option Tree := do ofString? (← String.fromUTF8? b)

mutual

/-- Whether no string inside holds an unescaped control character. Nothing more is asked of a part
of a document that nobody reads. -/
def isClean : Tree → Bool
  | .string ps => Text.noRawControl ps
  | .array items => cleanItems items
  | .object members => cleanMembers members
  | _ => true

/-- `isClean` for every item. -/
def cleanItems : List Tree → Bool
  | [] => true
  | t :: ts => t.isClean && cleanItems ts

/-- `isClean` for every member and its key. -/
def cleanMembers : List (List Text.Piece × Tree) → Bool
  | [] => true
  | (key, t) :: ts => Text.noRawControl key && t.isClean && cleanMembers ts

end

end Tree

end StoreFeed.Json
