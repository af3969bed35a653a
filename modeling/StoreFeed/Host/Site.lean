import StoreFeed.Host.Fault
import StoreFeed.Log
import StoreFeed.Metrics.Replicas
import StoreFeed.Producers
import StoreFeed.Stats.Aggregator
import StoreFeed.Storage

/-!
# Where a replica runs

A `Site` is what the replicas of one host share, `Commons` is what all hosts share.
-/

namespace StoreFeed

/-- What all hosts share. -/
structure Commons where
  /-- Milliseconds since the epoch. -/
  now : Nat
  log : Log
  metrics : Metrics.ReplicaMetrics

/-- What the replicas of one host share. -/
structure Site where
  settings : HostSettings
  storage : Storage
  stats : Stats.Aggregator
  producers : Producers
  faults : FaultPlan
  /-- Records that the next poll brings ahead of those of the log. -/
  injected : List (TopicPartition × ChangeRecord)
  /-- Calls that were written down, the last one first. -/
  calls : List Call

/-- A host on which nothing happened. -/
def Site.create (settings : HostSettings) : Site :=
  { settings
    storage := Storage.empty
    stats := Stats.Aggregator.create settings.localRegion
    producers := Producers.empty
    faults := SortedMap.empty
    injected := []
    calls := [] }

end StoreFeed
