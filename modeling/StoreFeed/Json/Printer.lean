import StoreFeed.Json.Value
import StoreFeed.Json.Text
import StoreFeed.Decimal.Shortest

/-!
# Compact JSON text

Values are written without blanks, members in key order, floats in the fewest digits that read back.
-/

namespace StoreFeed.Json

/-- Floats keep `.0` and are positional from `1e-5` up to, not including, `1e16`. -/
def floatStyle : Decimal.Style := ⟨-4, 16, true⟩

/-- An integer in decimal. -/
def intDigits (n : Int) : List Char :=
  match n with
  | .ofNat n => Nat.toDigits 10 n
  | .negSucc n => '-' :: Nat.toDigits 10 (n + 1)

namespace Value

mutual

/-- The compact text of a value, as characters. -/
def chars : Value → List Char
  | .null => ['n', 'u', 'l', 'l']
  | .bool true => ['t', 'r', 'u', 'e']
  | .bool false => ['f', 'a', 'l', 's', 'e']
  | .int n => intDigits n
  | .float x => floatStyle.render x
  | .str s => Text.quote s
  | .arr [] => ['[', ']']
  | .arr (a :: as) => '[' :: (a.chars ++ itemChars as)
  | .obj [] => ['{', '}']
  | .obj ((k, a) :: as) => '{' :: (Text.quote k ++ ':' :: (a.chars ++ memberChars as))

/-- The items after the first, and the closing bracket. -/
def itemChars : List Value → List Char
  | [] => [']']
  | a :: as => ',' :: (a.chars ++ itemChars as)

/-- The members after the first, and the closing brace. -/
def memberChars : List (String × Value) → List Char
  | [] => ['}']
  | (k, a) :: as => ',' :: (Text.quote k ++ ':' :: (a.chars ++ memberChars as))

end

/-- The compact text of a value. -/
def render (v : Value) : String := String.ofList v.chars

/-- The compact text of a value, as bytes. -/
def toBytes (v : Value) : ByteArray := v.render.toUTF8

end Value

end StoreFeed.Json
