import StoreFeed.Lag
import StoreFeed.Wire.Record

/-!
# Lag snapshots in JSON
-/

namespace StoreFeed.LagSnapshot

open Json

/-- The JSON form of a lag snapshot. -/
def toJson (s : LagSnapshot) : Value :=
  .obj [("role", s.role.toJson), ("hybrid", .bool s.hybrid),
    ("end_of_push_received", .bool s.endOfPush),
    ("start_of_buffer_replay_received", .bool s.startOfBufferReplay),
    ("leader_batch_lag", .nat s.leaderBatch), ("leader_hybrid_lag", .nat s.leaderHybrid),
    ("follower_batch_lag", .nat s.followerBatch), ("follower_hybrid_lag", .nat s.followerHybrid),
    ("real_time_lag", .ofOption .nat s.realTime), ("offset_lag_threshold", .nat s.threshold),
    ("region_lags", .obj (s.regions.entries.map fun (r, lag) => (toString r.toNat, .nat lag)))]

/-- The names of the fields, in the order of their positions. -/
def fieldNames : List String :=
  ["role", "hybrid", "end_of_push_received", "start_of_buffer_replay_received", "leader_batch_lag",
    "leader_hybrid_lag", "follower_batch_lag", "follower_hybrid_lag", "real_time_lag",
    "offset_lag_threshold", "region_lags"]

/-- Reads a lag snapshot. -/
def decoder : Decoder LagSnapshot :=
  Decoder.record fieldNames fun f => do
    pure
      { role := ← f.required "role" Role.decoder
        hybrid := ← f.required "hybrid" Decoder.bool
        endOfPush := ← f.required "end_of_push_received" Decoder.bool
        startOfBufferReplay := ← f.required "start_of_buffer_replay_received" Decoder.bool
        leaderBatch := ← f.required "leader_batch_lag" Decoder.word64
        leaderHybrid := ← f.required "leader_hybrid_lag" Decoder.word64
        followerBatch := ← f.required "follower_batch_lag" Decoder.word64
        followerHybrid := ← f.required "follower_hybrid_lag" Decoder.word64
        realTime := ← f.optional "real_time_lag" Decoder.word64
        threshold := ← f.required "offset_lag_threshold" Decoder.word64
        regions := ← f.required "region_lags" (Decoder.wordTable Decoder.word64) }

end StoreFeed.LagSnapshot
