import StoreFeed.Json.Decoder
import StoreFeed.Json.Printer
import StoreFeed.Update.Basic

/-!
# Schemas and updates in JSON

A record is written with its fields in the order of their positions, a map with its members in the
order of their keys.
-/

namespace StoreFeed

open Json

namespace FieldKind

/-- The JSON form of a field kind. -/
def toJson (k : FieldKind) : Value := .str k.label

/-- The field kind of a name. -/
def ofLabel? (s : String) : Option FieldKind :=
  [scalar, list, map].find? (·.label == s)

/-- Reads a field kind. -/
def decoder : Decoder FieldKind := Decoder.enumeration ofLabel?

end FieldKind

namespace FieldSchema

/-- The JSON form of a field of a schema. -/
def toJson (f : FieldSchema) : Value :=
  .obj [("name", .str f.name), ("kind", f.kind.toJson), ("default", f.default)]

/-- Reads a field of a schema. -/
def decoder : Decoder FieldSchema :=
  Decoder.record ["name", "kind", "default"] fun f => do
    pure ⟨← f.required "name" Decoder.string, ← f.required "kind" FieldKind.decoder,
      ← f.required "default" Decoder.value⟩

end FieldSchema

namespace Schema

/-- The JSON form of a schema. -/
def toJson (s : Schema) : Value := .obj [("fields", .arr (s.fields.map FieldSchema.toJson))]

/-- Reads a schema. -/
def decoder : Decoder Schema :=
  Decoder.record ["fields"] fun f => do
    pure ⟨← f.required "fields" (Decoder.list FieldSchema.decoder)⟩

end Schema

namespace FieldUpdate

/-- The JSON form of an operation: its name, and what it carries. -/
def toJson : FieldUpdate → Value
  | .set value => .obj [("op", .str "set"), ("args", value)]
  | .noOp => .obj [("op", .str "no_op")]
  | .listOps add remove =>
    .obj [("op", .str "list_ops"),
      ("args", .obj [("add", .arr add), ("remove", .arr remove)])]
  | .mapOps put remove =>
    .obj [("op", .str "map_ops"),
      ("args", .obj [("put", .obj put), ("remove", .arr (remove.map .str))])]

/-- Reads what a list operation carries. -/
def listOpsDecoder : Decoder FieldUpdate :=
  Decoder.namedRecord ["add", "remove"] fun f => do
    pure (.listOps (← f.withDefault "add" (Decoder.list Decoder.value) [])
      (← f.withDefault "remove" (Decoder.list Decoder.value) []))

/-- Reads what a map operation carries. -/
def mapOpsDecoder : Decoder FieldUpdate :=
  Decoder.namedRecord ["put", "remove"] fun f => do
    pure (.mapOps
      (← f.withDefault "put" ((Decoder.members Decoder.value).map Entries.ofList) [])
      (← f.withDefault "remove" (Decoder.list Decoder.string) []))

/-- Reads what an operation of a given name carries. -/
def argsDecoder? : String → Option (Decoder FieldUpdate)
  | "set" => some (Decoder.value.map .set)
  | "no_op" => some fun _ t => match t with
    | .null => some .noOp
    | _ => none
  | "list_ops" => some listOpsDecoder
  | "map_ops" => some mapOpsDecoder
  | _ => none

/-- Reads an operation. Only where fields are given by name may one that carries nothing leave its
content out, and may the name stand as the only key of an object. Content given ahead of the name
has to be a value in all its parts, those included that the operation does not ask for. -/
def decoder : Decoder FieldUpdate :=
  Decoder.record ["op", "args"] fun f => do
    let op ← f.required "op" (if f.named then Decoder.enumeration some else Decoder.string)
    let args ← argsDecoder? op
    match f.get? "args" with
    | some t =>
      if f.ahead "args" "op" && (Decoder.value f.depth t).isNone then none else args f.depth t
    | none => if op = "no_op" ∧ f.named then some .noOp else none

end FieldUpdate

namespace PartialUpdate

/-- The JSON form of an update. -/
def toJson (u : PartialUpdate) : Value := .obj (u.entries.map fun (name, op) => (name, op.toJson))

/-- Reads an update. -/
def decoder : Decoder PartialUpdate := Decoder.table FieldUpdate.decoder

/-- The length of the JSON text, which stands for the size of the update. -/
def estimatedSize (u : PartialUpdate) : Nat := u.toJson.toBytes.size

end PartialUpdate

end StoreFeed
