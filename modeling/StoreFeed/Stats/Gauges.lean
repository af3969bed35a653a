import StoreFeed.Stats.Ingestion
import StoreFeed.Stats.Registry

/-!
# Gauges of ingestion statistics

Which figures a scope shows and under which names: some for every scope, some once a version of the
scope is hybrid, and three for each region of an active-active version.
-/

namespace StoreFeed.Stats

open Sensor

namespace IngestionStats

/-- A figure that leaves the statistics as they are. -/
def figure (default : Float) (f : IngestionStats → Except Overflow Float) : Gauge IngestionStats :=
  ⟨fun _ s => (f s, s), default⟩

/-- A rate, whose windows roll when it is read. -/
def rate (get : IngestionStats → Rate Float) (set : IngestionStats → Rate Float → IngestionStats) :
    Gauge IngestionStats :=
  ⟨fun now s =>
    let (v, r) := (get s).measure now
    (.ok v, set s r), 0⟩

/-- Mean and maximum of a latency. -/
def latency (name : String) (get : IngestionStats → Latency) :
    List (String × Gauge IngestionStats) :=
  [(name ++ "_avg", figure 0 fun s => .ok (get s).average.measure),
    (name ++ "_max", figure 0 fun s => .ok (get s).maximum.measure)]

/-- Figures of every scope. -/
def baseGauges : List (String × Gauge IngestionStats) :=
  let none_ := Sentinel.noStats.value
  [("ingestion_task_errored_gauge", figure none_ fun s => .ok s.erroredFlag),
    ("ingestion_task_push_timeout_gauge", figure none_ fun s => .ok s.pushTimeoutFlag),
    ("write_compute_operation_failure", figure none_ fun s => .ok s.mergeErrorCode),
    ("batch_replication_lag", figure 0 batchLag),
    ("leader_offset_lag", figure 0 leaderLag),
    ("batch_leader_offset_lag", figure 0 leaderBatchLag),
    ("hybrid_leader_offset_lag", figure 0 leaderHybridLag),
    ("follower_offset_lag", figure 0 followerLag),
    ("batch_follower_offset_lag", figure 0 followerBatchLag),
    ("hybrid_follower_offset_lag", figure 0 followerHybridLag),
    ("records_consumed", rate (·.recordsConsumed) fun s r => { s with recordsConsumed := r }),
    ("bytes_consumed", rate (·.bytesConsumed) fun s r => { s with bytesConsumed := r }),
    ("leader_records_consumed",
      rate (·.leaderRecordsConsumed) fun s r => { s with leaderRecordsConsumed := r }),
    ("leader_bytes_consumed",
      rate (·.leaderBytesConsumed) fun s r => { s with leaderBytesConsumed := r }),
    ("follower_records_consumed",
      rate (·.followerRecordsConsumed) fun s r => { s with followerRecordsConsumed := r }),
    ("follower_bytes_consumed",
      rate (·.followerBytesConsumed) fun s r => { s with followerBytesConsumed := r }),
    ("leader_records_produced",
      rate (·.leaderRecordsProduced) fun s r => { s with leaderRecordsProduced := r }),
    ("leader_bytes_produced",
      rate (·.leaderBytesProduced) fun s r => { s with leaderBytesProduced := r }),
    ("stale_partitions_without_ingestion_task",
      figure 0 fun s => .ok s.stalePartitions.measure)] ++
  latency "subscribe_action_prep_latency" (·.prepareLatency) ++
  latency "subscribe_action_get_consumer_latency" (·.acquireLatency) ++
  latency "subscribe_action_consumer_subscribe_latency" (·.subscribeLatency)

/-- Figures of hybrid versions. -/
def hybridGauges : List (String × Gauge IngestionStats) :=
  [("rt_topic_offset_lag", figure 0 realTimeLag),
    ("rt_topic_offset_lag_over_threshold", figure 0 realTimeLagOverThreshold),
    ("number_of_partitions_not_receive_SOBR", figure 0 fun s => .ok s.awaitingBufferReplay),
    ("leader_stalled_hybrid_ingestion", ⟨fun now s => s.leaderStalled now, 0⟩)]

/-- Figures of one region, under names that start with `stem`. -/
def regionGauges (stem : String) (region : RegionId) : List (String × Gauge IngestionStats) :=
  [(stem ++ "_rt_lag", figure 0 (·.regionLag region)),
    (stem ++ "_rt_bytes_consumed",
      ⟨fun now s =>
        let (v, s) := s.regionBytes region now
        (.ok v, s), 0⟩),
    (stem ++ "_rt_records_consumed",
      ⟨fun now s =>
        let (v, s) := s.regionRecords region now
        (.ok v, s), 0⟩)]

end IngestionStats

/-- How the names of a region's figures start. -/
def regionStem (localRegion region : String) : String := localRegion ++ "_from_" ++ region

end StoreFeed.Stats
