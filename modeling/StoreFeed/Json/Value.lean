import StoreFeed.Entries
import StoreFeed.Decimal.Binary64

/-!
# JSON values

The members of an object are kept in increasing key order, each key once, so the order in which a
document lists them carries no meaning. Integers and floats are different values (`1` is not `1.0`),
and the two float zeros are the same value.
-/

namespace StoreFeed.Json

/-- A JSON value. -/
inductive Value where
  | null
  | bool (b : Bool)
  | int (n : Int)
  | float (x : Binary64)
  | str (s : String)
  | arr (items : List Value)
  | obj (members : List (String × Value))

namespace Value

instance : Inhabited Value := ⟨.null⟩

mutual

/-- Equality of values. -/
def same : Value → Value → Bool
  | .null, .null => true
  | .bool a, .bool b => a == b
  | .int a, .int b => a == b
  | .float a, .float b => a.same b
  | .str a, .str b => a == b
  | .arr a, .arr b => sameItems a b
  | .obj a, .obj b => sameMembers a b
  | _, _ => false

/-- Equality of lists of values, item by item. -/
def sameItems : List Value → List Value → Bool
  | [], [] => true
  | a :: as, b :: bs => a.same b && sameItems as bs
  | _, _ => false

/-- Equality of members, key by key. -/
def sameMembers : List (String × Value) → List (String × Value) → Bool
  | [], [] => true
  | (k, a) :: as, (l, b) :: bs => k == l && a.same b && sameMembers as bs
  | _, _ => false

end

instance : BEq Value := ⟨same⟩

/-- An object with the given members; of a repeated key the last one stays. -/
def object (members : List (String × Value)) : Value := .obj (Entries.ofList members)

/-- A natural number. -/
def nat (n : Nat) : Value := .int n

/-- Null, or the value of what is there. -/
def ofOption {α : Type} (f : α → Value) : Option α → Value
  | none => .null
  | some a => f a

mutual

/-- Whether the members of every object inside are in increasing key order. -/
def Ordered : Value → Prop
  | .arr items => OrderedItems items
  | .obj members => Entries.Sorted members ∧ OrderedMembers members
  | _ => True

/-- `Ordered` for every item. -/
def OrderedItems : List Value → Prop
  | [] => True
  | a :: as => a.Ordered ∧ OrderedItems as

/-- `Ordered` for every member. -/
def OrderedMembers : List (String × Value) → Prop
  | [] => True
  | (_, a) :: as => a.Ordered ∧ OrderedMembers as

end

mutual

/-- How many arrays and objects enclose the innermost value. -/
def depth : Value → Nat
  | .arr items => depthItems items + 1
  | .obj members => depthMembers members + 1
  | _ => 0

/-- The largest depth among the items. -/
def depthItems : List Value → Nat
  | [] => 0
  | a :: as => max a.depth (depthItems as)

/-- The largest depth among the members. -/
def depthMembers : List (String × Value) → Nat
  | [] => 0
  | (_, a) :: as => max a.depth (depthMembers as)

end

/-! ## Equality is an equivalence -/

mutual

theorem same_self (v : Value) : v.same v = true := by
  cases v with
  | null => rfl
  | bool b => simp [same]
  | int n => simp [same]
  | float x => simpa [same] using x.same_self
  | str s => simp [same]
  | arr items => simpa [same] using sameItems_self items
  | obj members => simpa [same] using sameMembers_self members

theorem sameItems_self (items : List Value) : sameItems items items = true := by
  cases items with
  | nil => rfl
  | cons a as => simp [sameItems, same_self a, sameItems_self as]

theorem sameMembers_self (members : List (String × Value)) :
    sameMembers members members = true := by
  cases members with
  | nil => rfl
  | cons e as =>
    obtain ⟨k, a⟩ := e
    simp [sameMembers, same_self a, sameMembers_self as]

end

instance : ReflBEq Value := ⟨fun {v} => same_self v⟩

end Value

end StoreFeed.Json
