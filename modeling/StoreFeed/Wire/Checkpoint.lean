import StoreFeed.Storage
import StoreFeed.Wire.Record

/-!
# Checkpoints in JSON
-/

namespace StoreFeed

open Json

namespace Checkpoint

/-- The JSON form of a checkpoint. -/
def toJson (c : Checkpoint) : Value :=
  .obj [("version_topic_offset", .nat c.versionOffset),
    ("end_of_push_received", .bool c.endOfPush),
    ("start_of_buffer_replay_received", .bool c.startOfBufferReplay),
    ("upstream", .arr (c.realTime.map RealTimePosition.toJson))]

/-- The names of the fields, in the order of their positions. -/
def fieldNames : List String :=
  ["version_topic_offset", "end_of_push_received", "start_of_buffer_replay_received", "upstream"]

/-- Reads a checkpoint; everything but the offset may be missing. -/
def decoder : Decoder Checkpoint :=
  Decoder.record fieldNames fun f => do
    pure ⟨← f.required "version_topic_offset" Decoder.word64,
      ← f.withDefault "end_of_push_received" Decoder.bool false,
      ← f.withDefault "start_of_buffer_replay_received" Decoder.bool false,
      ← f.withDefault "upstream" (Decoder.list RealTimePosition.decoder) []⟩

end Checkpoint

end StoreFeed
