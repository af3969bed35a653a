import StoreFeed.Replica.Lifecycle
import StoreFeed.Wire.Lag

/-!
# Replica states in JSON
-/

namespace StoreFeed

open Json

/-- The JSON form of a state. -/
def ReplicaState.toJson (s : ReplicaState) : Value := .str s.label

/-- The JSON form of a status. -/
def ReplicaStatus.toJson (s : ReplicaStatus) : Value :=
  .obj [("state", s.state.toJson), ("role", s.role.toJson), ("ready", .bool s.ready),
    ("errored", .bool s.errored), ("push_timeout", .bool s.pushTimeout), ("stale", .bool s.stale),
    ("lag", s.lag.toJson)]

end StoreFeed
