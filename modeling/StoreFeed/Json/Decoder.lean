import StoreFeed.SortedMap
import StoreFeed.Json.Tree
import StoreFeed.Json.Value

/-!
# Reading data out of JSON documents

A decoder takes a part of a document to a value of its type, or refuses it. It is told how many more
levels of arrays and objects it may enter, so a document nested deeper than `maxDepth` is refused
wherever somebody reads that deep; parts that nobody reads may be nested at will.

A record is an object with one member per field, in any order, where members of other names are
ignored and a field given twice is refused; or an array of the fields in their order.
-/

namespace StoreFeed.Json

/-- Reads an `α`, entering at most the given number of levels. -/
def Decoder (α : Type) := Nat → Tree → Option α

/-- The deepest nesting that is read. -/
def maxDepth : Nat := 127

/-- Read a whole text. -/
def Decoder.run {α : Type} (d : Decoder α) (text : String) : Option α := do
  d maxDepth (← Tree.ofString? text)

/-- Read bytes, which have to be UTF-8. -/
def Decoder.runBytes {α : Type} (d : Decoder α) (b : ByteArray) : Option α := do
  d maxDepth (← Tree.ofBytes? b)

namespace Decoder

variable {α β : Type}

/-- Change what is read. -/
def map (f : α → β) (d : Decoder α) : Decoder β := fun depth t => (d depth t).map f

/-- Change what is read, or refuse it. -/
def filterMap (f : α → Option β) (d : Decoder α) : Decoder β := fun depth t => (d depth t).bind f

/-! ## Scalars -/

/-- The integer a number stands for: written without point and exponent, and within 64 bits. Minus
zero is no integer. -/
def integerOf? (t : Decimal.Literal) : Option Int :=
  if t.fraction ≠ [] ∨ t.exponent ≠ none then none
  else
    let n := Nat.ofDigitChars 10 t.whole 0
    if t.negative then if n ≠ 0 ∧ n ≤ 9223372036854775808 then some (-n) else none
    else if n ≤ Decimal.maxWord64 then some n
    else none

/-- An integer of 64 bits, with or without sign. -/
def int : Decoder Int
  | _, .number t => integerOf? t
  | _, _ => none

/-- A natural number up to `bound`. -/
def nat (bound : Nat) : Decoder Nat
  | _, .number t =>
    (integerOf? t).bind fun n => if 0 ≤ n ∧ n.toNat ≤ bound then some n.toNat else none
  | _, _ => none

/-- A natural number of 64 bits. -/
def word64 : Decoder Nat := nat Decimal.maxWord64

/-- A natural number of 32 bits. -/
def word32 : Decoder UInt32 := (nat Decimal.maxWord32).map UInt32.ofNat

/-- A truth value. -/
def bool : Decoder Bool
  | _, .bool b => some b
  | _, _ => none

/-- A text. -/
def string : Decoder String
  | _, .string ps => Text.text? ps
  | _, _ => none

/-! ## Values -/

/-- The value a number stands for. -/
def numberOf? (t : Decimal.Literal) : Option Value :=
  match integerOf? t with
  | some n => some (.int n)
  | none => do pure (.float (← Binary64.ofFloat? (← t.toFloat?)))

mutual

/-- Any value. -/
def value : Decoder Value
  | _, .null => some .null
  | _, .bool b => some (.bool b)
  | _, .number t => numberOf? t
  | _, .string ps => (Text.text? ps).map .str
  | 0, .array _ => none
  | depth + 1, .array items => (valueItems depth items).map .arr
  | 0, .object _ => none
  | depth + 1, .object members => (valueMembers depth members).map .object

/-- The values of all items. -/
def valueItems : Nat → List Tree → Option (List Value)
  | _, [] => some []
  | depth, t :: ts => do
    let v ← value depth t
    let vs ← valueItems depth ts
    pure (v :: vs)

/-- The keys and values of all members. -/
def valueMembers : Nat → List (List Text.Piece × Tree) → Option (List (String × Value))
  | _, [] => some []
  | depth, (key, t) :: ts => do
    let k ← Text.text? key
    let v ← value depth t
    let vs ← valueMembers depth ts
    pure ((k, v) :: vs)

end

/-! ## Collections -/

/-- A list. -/
def list (d : Decoder α) : Decoder (List α)
  | depth + 1, .array items => items.mapM (d depth)
  | _, _ => none

/-- Null for nothing. -/
def option (d : Decoder α) : Decoder (Option α)
  | _, .null => some none
  | depth, t => (d depth t).map some

/-- The members of an object with texts as keys, in their order. -/
def members (d : Decoder α) : Decoder (List (String × α))
  | depth + 1, .object ms => ms.mapM fun (key, t) => do pure (← Text.text? key, ← d depth t)
  | _, _ => none

/-- An object as a map; of a repeated key the last member stays. -/
def table (d : Decoder α) : Decoder (SortedMap String α) := (members d).map SortedMap.ofList

/-- A key that is a number of 32 bits, written without sign, blanks, escapes or leading zeros. -/
def keyWord32? (key : List Text.Piece) : Option UInt32 := do
  let digits ← key.mapM fun p => match p with
    | .raw c => some c
    | .escaped _ => none
  match digits with
  | '0' :: _ :: _ => none
  | _ => (Decimal.naturalUpTo? Decimal.maxWord32 digits).map UInt32.ofNat

/-- An object whose keys are numbers. -/
def wordTable (d : Decoder α) : Decoder (SortedMap UInt32 α)
  | depth + 1, .object ms =>
    (ms.mapM fun (key, t) => do pure (← keyWord32? key, ← d depth t)).map SortedMap.ofList
  | _, _ => none

/-- Bytes: an array of numbers below 256, or a text. -/
def bytes : Decoder ByteArray
  | _, .string ps => some ⟨(Text.bytes ps).toArray⟩
  | depth, t => (list (nat 255) depth t).map fun ns => ⟨(ns.map Nat.toUInt8).toArray⟩

/-! ## Records -/

/-- The fields of a record found in a document. -/
structure Fields where
  /-- Given by name; otherwise by position. -/
  named : Bool
  found : List (String × Tree)
  /-- How many levels a field may enter. -/
  depth : Nat

/-- The tree of a field. -/
def Fields.get? (f : Fields) (name : String) : Option Tree := f.found.lookup name

/-- A field that has to be there. -/
def Fields.required (f : Fields) (name : String) (d : Decoder α) : Option α := do
  d f.depth (← f.get? name)

/-- A field that has a default. -/
def Fields.withDefault (f : Fields) (name : String) (d : Decoder α) (default : α) : Option α :=
  match f.get? name with
  | none => some default
  | some t => d f.depth t

/-- A field that may be null, and may be missing where fields have names. -/
def Fields.optional (f : Fields) (name : String) (d : Decoder α) : Option (Option α) :=
  match f.get? name with
  | none => if f.named then some none else none
  | some t => option d f.depth t

/-- Whether one field is given ahead of another. -/
def Fields.ahead (f : Fields) (name other : String) : Bool :=
  let given := f.found.map (·.1)
  given.idxOf name < given.idxOf other

/-- The members that are fields, in the order in which they are given. -/
def collectFields (names : List String) :
    List (List Text.Piece × Tree) → Option (List (String × Tree))
  | [] => some []
  | (key, t) :: rest => do
    let k ← Text.text? key
    let found ← collectFields names rest
    if names.contains k then if (found.lookup k).isSome then none else some ((k, t) :: found)
    else if t.isClean then some found
    else none

/-- A record whose fields are given by name only. -/
def namedRecord (names : List String) (read : Fields → Option α) : Decoder α
  | depth + 1, .object ms => do
    read ⟨true, ← collectFields names ms, depth⟩
  | _, _ => none

/-- A record, by name or by position. -/
def record (names : List String) (read : Fields → Option α) : Decoder α
  | depth + 1, .object ms => namedRecord names read (depth + 1) (.object ms)
  | depth + 1, .array items =>
    if items.length ≤ names.length then read ⟨false, names.zip items, depth⟩ else none
  | _, _ => none

/-! ## Alternatives -/

/-- One of several named alternatives, with what it carries. An alternative that carries nothing is
written as its name, or as an object with null. -/
def variant (read : String → Option (Nat × Tree) → Option α) : Decoder α
  | _, .string ps => do read (← Text.text? ps) none
  | depth + 1, .object [(key, t)] => do read (← Text.text? key) (some (depth, t))
  | _, _ => none

/-- Alternatives that carry nothing. -/
def enumeration (ofName? : String → Option α) : Decoder α :=
  variant fun name content =>
    match content with
    | none | some (_, .null) => ofName? name
    | some _ => none

end Decoder

end StoreFeed.Json
