import StoreFeed.Error
import StoreFeed.Json.Decoder
import StoreFeed.Update.Basic

/-!
# Merging partial updates

A merge first checks every field of the update against the schema, then takes the stored object,
gives it the schema's defaults for fields it lacks, and applies the operations in order of field
names. It returns a new value or the first error; the stored value is not touched.
-/

namespace StoreFeed

open Json

namespace Schema

/-- What is wrong with an operation on a field, if anything. -/
def objection? (s : Schema) (name : String) (op : FieldUpdate) : Option DataError :=
  match s.field? name with
  | none => some (.unknownField name)
  | some field =>
    match op.neededKind? with
    | none => none
    | some actual =>
      if actual = field.kind then none else some (.kindMismatch name field.kind actual)

/-- The first objection to an update, in order of field names. -/
def firstObjection? (s : Schema) (u : PartialUpdate) : Option DataError :=
  u.entries.findSome? fun (name, op) => s.objection? name op

/-- Give an object the defaults of the fields it lacks. -/
def complete (s : Schema) (members : Entries String Value) : Entries String Value :=
  s.fields.foldl (fun m f => Entries.insertNew f.name f.default m) members

end Schema

namespace FieldUpdate

/-- The elements of a list after some are taken out. -/
def without (items remove : List Value) : List Value :=
  items.filter fun item => !remove.contains item

/-- Append an element unless the list has it. -/
def appendNew (items : List Value) (item : Value) : List Value :=
  if items.contains item then items else items ++ [item]

/-- The list that a field holds; null is the empty list. -/
def listOf (field : String) : Option Value → Except DataError (List Value)
  | none | some .null => .ok []
  | some (.arr items) => .ok items
  | some found => .error (.notAList field found)

/-- The map that a field holds; null is the empty map. -/
def mapOf (field : String) : Option Value → Except DataError (Entries String Value)
  | none | some .null => .ok []
  | some (.obj members) => .ok members
  | some found => .error (.notAMap field found)

/-- Apply an operation to a field of an object. -/
def apply (members : Entries String Value) (field : String) :
    FieldUpdate → Except DataError (Entries String Value)
  | .noOp => .ok members
  | .set value => .ok (members.insert field value)
  | .listOps add remove => do
    let items ← listOf field (members.find? field)
    pure (members.insert field (.arr (add.foldl appendNew (without items remove))))
  | .mapOps put remove => do
    let entries ← mapOf field (members.find? field)
    let kept := remove.foldl (fun m key => Entries.erase key m) entries
    pure (members.insert field (.obj (put.foldl (fun m e => Entries.insert e.1 e.2 m) kept)))

end FieldUpdate

/-- The object a stored value is; no stored value is the empty object. -/
def storedMembers : Option Value → Except DataError (Entries String Value)
  | none => .ok []
  | some (.obj members) => .ok members
  | some found => .error (.notAnObject found)

/-- Merge an update into the stored value. -/
def merge (schema : Schema) (current : Option Value) (update : PartialUpdate) :
    Except DataError Value :=
  match schema.firstObjection? update with
  | some err => .error err
  | none => do
    let members ← storedMembers current
    let merged ← update.entries.foldlM (fun m (name, op) => op.apply m name)
      (schema.complete members)
    pure (.obj merged)

/-- The value that stored bytes are. -/
def decodeValue (b : ByteArray) : Except DataError Value :=
  match Decoder.value.runBytes b with
  | some v => .ok v
  | none => .error .malformed

/-- Merge an update into stored bytes. -/
def mergeBytes (schema : Schema) (current : Option ByteArray) (update : PartialUpdate) :
    Except DataError ByteArray := do
  let current ← current.mapM decodeValue
  let merged ← merge schema current update
  pure merged.toBytes

end StoreFeed
