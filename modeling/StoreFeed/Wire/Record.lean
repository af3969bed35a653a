import StoreFeed.Record

/-!
# Replicas, topics and records in JSON

Bytes are arrays of numbers; a text is accepted for its bytes.
-/

namespace StoreFeed

open Json

/-- The JSON form of bytes. -/
def bytesToJson (b : ByteArray) : Value := .arr (b.toList.map fun x => .nat x.toNat)

/-- The JSON form of a region, or of none. -/
def regionToJson (region : Option RegionId) : Value := .ofOption (fun r => .nat r.toNat) region

namespace Role

/-- The JSON form of a role. -/
def toJson : Role → Value
  | .leader => .str "Leader"
  | .standby => .str "Standby"

/-- Reads a role. -/
def decoder : Decoder Role :=
  Decoder.enumeration fun
    | "Leader" => some .leader
    | "Standby" => some .standby
    | _ => none

end Role

namespace ReplicaId

/-- The JSON form of a replica's name. -/
def toJson (r : ReplicaId) : Value :=
  .obj [("store", .str r.store), ("version", .nat r.version.toNat),
    ("partition", .nat r.partition.toNat)]

/-- Reads a replica's name. -/
def decoder : Decoder ReplicaId :=
  Decoder.record ["store", "version", "partition"] fun f => do
    pure ⟨← f.required "store" Decoder.string, ← f.required "version" Decoder.word32,
      ← f.required "partition" Decoder.word32⟩

end ReplicaId

namespace TopicPartition

/-- The JSON form of a topic partition. -/
def toJson (tp : TopicPartition) : Value :=
  .obj [("topic", .str tp.topic), ("partition", .nat tp.partition.toNat),
    ("region", regionToJson tp.region)]

/-- Reads a topic partition. -/
def decoder : Decoder TopicPartition :=
  Decoder.record ["topic", "partition", "region"] fun f => do
    pure ⟨← f.required "topic" Decoder.string, ← f.required "partition" Decoder.word32,
      ← f.optional "region" Decoder.word32⟩

end TopicPartition

namespace ControlMessage

/-- The name of a control message. -/
def label : ControlMessage → String
  | .startOfPush => "StartOfPush"
  | .endOfPush => "EndOfPush"
  | .startOfBufferReplay => "StartOfBufferReplay"

/-- The JSON form of a control message. -/
def toJson (m : ControlMessage) : Value := .str m.label

/-- The control message of a name. -/
def ofLabel? (s : String) : Option ControlMessage :=
  [startOfPush, endOfPush, startOfBufferReplay].find? (·.label == s)

/-- Reads a control message. -/
def decoder : Decoder ControlMessage := Decoder.enumeration ofLabel?

end ControlMessage

namespace Payload

/-- The JSON form of a payload. -/
def toJson : Payload → Value
  | .put value => .obj [("Put", bytesToJson value)]
  | .delete => .str "Delete"
  | .update u => .obj [("Update", u.toJson)]
  | .control m => .obj [("Control", m.toJson)]

/-- Reads a payload. -/
def decoder : Decoder Payload :=
  Decoder.variant fun name content =>
    match name, content with
    | "Put", some (depth, t) => (Decoder.bytes depth t).map .put
    | "Update", some (depth, t) => (PartialUpdate.decoder depth t).map .update
    | "Control", some (depth, t) => (ControlMessage.decoder depth t).map .control
    | "Delete", none | "Delete", some (_, .null) => some .delete
    | _, _ => none

end Payload

namespace RealTimePosition

/-- The JSON form of a place in a real-time topic. -/
def toJson (o : RealTimePosition) : Value :=
  .obj [("region", regionToJson o.region), ("offset", .nat o.offset)]

/-- Reads a place in a real-time topic. -/
def decoder : Decoder RealTimePosition :=
  Decoder.record ["region", "offset"] fun f => do
    pure ⟨← f.optional "region" Decoder.word32, ← f.required "offset" Decoder.word64⟩

end RealTimePosition

namespace ChangeRecord

/-- The JSON form of a record; an absent origin is left out. -/
def toJson (r : ChangeRecord) : Value :=
  .obj <|
    [("offset", .nat r.offset), ("timestamp", .nat r.timestamp), ("key", bytesToJson r.key),
      ("payload", r.payload.toJson)] ++
    match r.origin with
    | some o => [("upstream", o.toJson)]
    | none => []

/-- Reads a record. -/
def decoder : Decoder ChangeRecord :=
  Decoder.record ["offset", "timestamp", "key", "payload", "upstream"] fun f => do
    pure ⟨← f.required "offset" Decoder.word64, ← f.required "timestamp" Decoder.word64,
      ← f.required "key" Decoder.bytes, ← f.required "payload" Payload.decoder,
      ← f.withDefault "upstream" (Decoder.option RealTimePosition.decoder) none⟩

end ChangeRecord

end StoreFeed
