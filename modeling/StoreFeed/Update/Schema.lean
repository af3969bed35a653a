import StoreFeed.Json.Value

/-!
# Value schemas

A schema lists the fields of a store's values with their kinds and defaults. A name may be listed
more than once: then the first listing decides kind and default of the field.
-/

namespace StoreFeed

open Json

/-- The shape of a field. -/
inductive FieldKind where
  | scalar
  | list
  | map
deriving DecidableEq

/-- The name of a field kind. -/
def FieldKind.label : FieldKind → String
  | .scalar => "scalar"
  | .list => "list"
  | .map => "map"

/-- One field of a schema. -/
structure FieldSchema where
  name : String
  kind : FieldKind
  default : Value

/-- The fields of a store's values. -/
structure Schema where
  fields : List FieldSchema

namespace Schema

/-- The schema without fields. -/
def empty : Schema := ⟨[]⟩

instance : Inhabited Schema := ⟨empty⟩

/-- Add a field at the end. -/
def withField (s : Schema) (name : String) (kind : FieldKind) (default : Value) : Schema :=
  ⟨s.fields ++ [⟨name, kind, default⟩]⟩

/-- The first field of a name. -/
def field? (s : Schema) (name : String) : Option FieldSchema :=
  s.fields.find? (·.name == name)

/-- A value that holds every field's default. Of a repeated name it holds the last default. -/
def defaultValue (s : Schema) : Value :=
  .object (s.fields.map fun f => (f.name, f.default))

/-- Equality of schemas: the same fields in the same order. -/
def same (a b : Schema) : Bool :=
  a.fields.length == b.fields.length &&
    (a.fields.zip b.fields).all fun (f, g) =>
      f.name == g.name && f.kind == g.kind && f.default.same g.default

end Schema

end StoreFeed
