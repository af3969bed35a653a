import StoreFeed.Settings
import StoreFeed.Wire.Record

/-!
# Settings in JSON

Times are numbers of milliseconds.
-/

namespace StoreFeed

open Json

namespace HostSettings

/-- The JSON form of host settings. -/
def toJson (s : HostSettings) : Value :=
  .obj [("poll_batch_size", .nat s.pollBatchSize), ("poll_interval", .nat s.pollInterval),
    ("bootstrap_timeout", .nat s.bootstrapTimeout), ("stale_grace", .nat s.staleGrace),
    ("initial_backoff", .nat s.initialBackoff), ("max_backoff", .nat s.maxBackoff),
    ("local_region", .str s.localRegion),
    ("producer_cache_capacity", .nat s.producerCacheCapacity)]

/-- The names of the fields, in the order of their positions. -/
def fieldNames : List String :=
  ["poll_batch_size", "poll_interval", "bootstrap_timeout", "stale_grace", "initial_backoff",
    "max_backoff", "local_region", "producer_cache_capacity"]

/-- Reads host settings; what is missing keeps its standard. -/
def decoder : Decoder HostSettings :=
  Decoder.record fieldNames fun f => do
    let s := standard
    pure
      { pollBatchSize := ← f.withDefault "poll_batch_size" Decoder.word64 s.pollBatchSize
        pollInterval := ← f.withDefault "poll_interval" Decoder.word64 s.pollInterval
        bootstrapTimeout := ← f.withDefault "bootstrap_timeout" Decoder.word64 s.bootstrapTimeout
        staleGrace := ← f.withDefault "stale_grace" Decoder.word64 s.staleGrace
        initialBackoff := ← f.withDefault "initial_backoff" Decoder.word64 s.initialBackoff
        maxBackoff := ← f.withDefault "max_backoff" Decoder.word64 s.maxBackoff
        localRegion := ← f.withDefault "local_region" Decoder.string s.localRegion
        producerCacheCapacity :=
          ← f.withDefault "producer_cache_capacity" Decoder.word64 s.producerCacheCapacity }

end HostSettings

/-- The JSON form of regions and their aliases. -/
def regionsToJson (regions : SortedMap RegionId String) : Value :=
  .obj (regions.entries.map fun (r, name) => (toString r.toNat, .str name))

namespace HybridSettings

/-- The JSON form of hybrid settings. -/
def toJson (s : HybridSettings) : Value :=
  .obj [("rewind_seconds", .nat s.rewindSeconds), ("offset_lag_threshold", .nat s.lagThreshold)]

/-- Reads hybrid settings. -/
def decoder : Decoder HybridSettings :=
  Decoder.record ["rewind_seconds", "offset_lag_threshold"] fun f => do
    pure ⟨← f.required "rewind_seconds" Decoder.word64,
      ← f.required "offset_lag_threshold" Decoder.word64⟩

end HybridSettings

namespace ReplicaProfile

/-- The JSON form of a profile. -/
def toJson (p : ReplicaProfile) : Value :=
  .obj [("hybrid", .bool p.hybrid), ("active_active", .bool p.activeActive),
    ("regions", regionsToJson p.regions)]

end ReplicaProfile

namespace VersionSettings

/-- The JSON form of version settings; absent hybrid settings are left out. -/
def toJson (s : VersionSettings) : Value :=
  .obj <|
    (match s.hybrid with
      | some h => [("hybrid", h.toJson)]
      | none => []) ++
    [("active_active", .bool s.activeActive), ("regions", regionsToJson s.regions),
      ("value_schema", s.schema.toJson)]

/-- Reads version settings; what is missing keeps its standard. -/
def decoder : Decoder VersionSettings :=
  Decoder.record ["hybrid", "active_active", "regions", "value_schema"] fun f => do
    pure ⟨← f.withDefault "hybrid" (Decoder.option HybridSettings.decoder) none,
      ← f.withDefault "active_active" Decoder.bool false,
      ← f.withDefault "regions" (Decoder.wordTable Decoder.string) SortedMap.empty,
      ← f.withDefault "value_schema" Schema.decoder Schema.empty⟩

end VersionSettings

end StoreFeed
