import StoreFeed.SortedMap
import StoreFeed.Json.Value
import StoreFeed.Update.Schema

/-!
# Partial updates

A partial update carries one operation for each field it touches; a field it does not name is left
alone. Every operation is relative to the value that is stored when it is merged, so delivering an
update twice gives the same value as delivering it once, up to the order of lists.
-/

namespace StoreFeed

open Json

/-- What an update does to one field. -/
inductive FieldUpdate where
  /-- Replace the field. -/
  | set (value : Value)
  /-- Leave the field as it is. -/
  | noOp
  /-- Take elements out of a list, then append those that are not in it. -/
  | listOps (add remove : List Value)
  /-- Drop keys of a map, then set others. -/
  | mapOps (put : Entries String Value) (remove : List String)

/-- The kind of field that an operation needs; none if any kind will do. -/
def FieldUpdate.neededKind? : FieldUpdate → Option FieldKind
  | .set _ | .noOp => none
  | .listOps .. => some .list
  | .mapOps .. => some .map

/-- A partial update: operations by field name. -/
abbrev PartialUpdate := SortedMap String FieldUpdate

namespace PartialUpdate

/-- The update that touches nothing. -/
def empty : PartialUpdate := SortedMap.empty

/-- Give a field an operation, in place of the one it had. -/
def with_ (u : PartialUpdate) (field : String) (op : FieldUpdate) : PartialUpdate :=
  u.insert field op

/-- Set a field. -/
def set (u : PartialUpdate) (field : String) (value : Value) : PartialUpdate :=
  u.with_ field (.set value)

/-- Leave a field alone. -/
def noOp (u : PartialUpdate) (field : String) : PartialUpdate := u.with_ field .noOp

/-- Add elements to a list. -/
def listAdd (u : PartialUpdate) (field : String) (items : List Value) : PartialUpdate :=
  u.with_ field (.listOps items [])

/-- Take elements out of a list. -/
def listRemove (u : PartialUpdate) (field : String) (items : List Value) : PartialUpdate :=
  u.with_ field (.listOps [] items)

/-- Set keys of a map. -/
def mapPut (u : PartialUpdate) (field : String) (entries : Entries String Value) : PartialUpdate :=
  u.with_ field (.mapOps entries [])

/-- Drop keys of a map. -/
def mapRemove (u : PartialUpdate) (field : String) (keys : List String) : PartialUpdate :=
  u.with_ field (.mapOps [] keys)

end PartialUpdate

end StoreFeed
