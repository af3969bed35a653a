import StoreFeed.Topic
import StoreFeed.Wire.Update

/-!
# Change records

A topic partition is a sequence of change records. A record either changes the value of its key or
is a control message, which marks a stage of the stream. A record that a leader published again says
where in a real-time topic it came from.
-/

namespace StoreFeed

/-- A mark in the stream of a version. -/
inductive ControlMessage where
  | startOfPush
  | endOfPush
  | startOfBufferReplay
deriving DecidableEq

/-- What a record does. -/
inductive Payload where
  | put (value : ByteArray)
  | delete
  | update (u : PartialUpdate)
  | control (m : ControlMessage)

/-- A place in a real-time topic. -/
structure RealTimePosition where
  region : Option RegionId
  offset : Nat
deriving DecidableEq

/-- One record of a topic partition. -/
structure ChangeRecord where
  /-- Place in the partition. -/
  offset : Nat
  /-- When it was produced, in milliseconds since the epoch. -/
  timestamp : Nat
  key : ByteArray
  payload : Payload
  /-- Where a leader read it before publishing it again. -/
  origin : Option RealTimePosition

namespace ChangeRecord

/-- The control message that a record carries. -/
def control? (r : ChangeRecord) : Option ControlMessage :=
  match r.payload with
  | .control m => some m
  | _ => none

/-- The size that consumption is measured in: sixteen bytes of header, the key and the payload. -/
def estimatedSize (r : ChangeRecord) : Nat :=
  16 + r.key.size +
    match r.payload with
    | .put value => value.size
    | .delete | .control _ => 0
    | .update u => u.estimatedSize

end ChangeRecord

end StoreFeed
