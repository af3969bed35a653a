import StoreFeed.Entries
import StoreFeed.SortedMap
import StoreFeed.Decimal.Natural
import StoreFeed.Decimal.Binary64
import StoreFeed.Decimal.Shortest
import StoreFeed.Decimal.Reading
import StoreFeed.Json.Value
import StoreFeed.Json.Text
import StoreFeed.Json.Printer
import StoreFeed.Json.Tree
import StoreFeed.Json.Decoder
import StoreFeed.Topic
import StoreFeed.Update.Schema
import StoreFeed.Update.Basic
import StoreFeed.Error
import StoreFeed.Update.Merge
import StoreFeed.Wire.Update
import StoreFeed.Record
import StoreFeed.Wire.Record
import StoreFeed.Word
import StoreFeed.Lag
import StoreFeed.Wire.Lag
import StoreFeed.Settings
import StoreFeed.Wire.Settings
import StoreFeed.Sensor.Basic
import StoreFeed.Sensor.Rate
import StoreFeed.Metrics.Family
import StoreFeed.Stats.Registry
import StoreFeed.Stats.Ingestion
import StoreFeed.Stats.Gauges
import StoreFeed.Stats.Aggregator
import StoreFeed.Text.Hidden
import StoreFeed.Stats.Describe
import StoreFeed.Log
import StoreFeed.Storage
import StoreFeed.Wire.Checkpoint
import StoreFeed.Producers
import StoreFeed.Replica.Lifecycle
import StoreFeed.Wire.Status
import StoreFeed.Replica.Backoff
import StoreFeed.Metrics.Replicas
import StoreFeed.Metrics.Exposition
import StoreFeed.Host.Probe
import StoreFeed.Host.Fault
import StoreFeed.Host.Site
import StoreFeed.Replica.Basic
import StoreFeed.Replica.Act
import StoreFeed.Replica.Calls
import StoreFeed.Replica.Failure
import StoreFeed.Replica.Subscribing
import StoreFeed.Replica.Processing
import StoreFeed.Replica.Cycle
import StoreFeed.Replica.Step
import StoreFeed.Host.Coordinator
import StoreFeed.Cluster
import StoreFeed.Proofs.Word
import StoreFeed.Proofs.Log
import StoreFeed.Proofs.SortedMap
import StoreFeed.Proofs.Lag
import StoreFeed.Proofs.Replica.Feed
import StoreFeed.Proofs.Replica.Ends
import StoreFeed.Proofs.Replica.Calls
import StoreFeed.Proofs.Replica.Moves
import StoreFeed.Proofs.Replica.Outlook
import StoreFeed.Proofs.Replica.Turns
import StoreFeed.Proofs.Replica.Life
import StoreFeed.Proofs.Replica.Readiness
import StoreFeed.Proofs.Replica.Flow
import StoreFeed.Proofs.Storage.Replay
import StoreFeed.Proofs.Storage.Replayable
import StoreFeed.Proofs.Replica.Contents
import StoreFeed.Proofs.Replica.Stamps
import StoreFeed.Proofs.Replica.Coverage
import StoreFeed.Proofs.Replica.Progress
import StoreFeed.Proofs.Replica.Prefix
import StoreFeed.Proofs.Replica.Resume
import StoreFeed.Proofs.Replica.Calm
import StoreFeed.Proofs.Cluster.Events
import StoreFeed.Proofs.Cluster.Convergence
import StoreFeed.Proofs.Cluster.Publication
import StoreFeed.Proofs.Cluster.Republication
import StoreFeed.Proofs.Cluster.Skipping
import StoreFeed.Proofs.Cluster.Checkpoints
import StoreFeed.Proofs.Cluster.Restarts
import StoreFeed.Proofs.Cluster.Rereading
import StoreFeed.Proofs.Cluster.RestartEquivalence
import StoreFeed.Proofs.Replica.Course
import StoreFeed.Proofs.Replica.Ways
import StoreFeed.Proofs.Replica.ErrorPolicy
import StoreFeed.Proofs.Cluster.InOrder
import StoreFeed.Proofs.Replica.Ranges
import StoreFeed.Proofs.Replica.Overflow
import StoreFeed.Proofs.Cluster.Overflow
import StoreFeed.Proofs.Replica.SafePoints
import StoreFeed.Proofs.Stats.Registry
import StoreFeed.Proofs.Stats.Reporters
import StoreFeed.Proofs.Stats.Aggregator
import StoreFeed.Proofs.Stats.Calls
import StoreFeed.Proofs.Stats.Totals
import StoreFeed.Proofs.Stats.Regions
import StoreFeed.Proofs.Host.Events
import StoreFeed.Proofs.Replica.Books
import StoreFeed.Proofs.Host.ErroredGauge
import StoreFeed.Proofs.Host.Bookkeeping
import StoreFeed.Proofs.Decimal
import StoreFeed.Proofs.Topic
import StoreFeed.Proofs.Stats.Topics
import StoreFeed.Proofs.Sensor.Retention
import StoreFeed.Proofs.Json.Value
import StoreFeed.Proofs.Json.Text
import StoreFeed.Proofs.Json.Tree
import StoreFeed.Proofs.Json.Decoder
import StoreFeed.Proofs.Wire.Records
import StoreFeed.Proofs.Update.Collections
import StoreFeed.Proofs.Update.Merge
import StoreFeed.Proofs.Update.Redelivery
import StoreFeed.Proofs.Update.Kinds
import StoreFeed.Proofs.Update.SuffixReplay
import StoreFeed.Proofs.Update.Result
import StoreFeed.Proofs.Update.Refusals
import StoreFeed.Proofs.Update.Disjoint
import StoreFeed.Proofs.Host.Shutdown
import StoreFeed.Proofs.Update.Defaults
import StoreFeed.Proofs.Update.Bytes
import StoreFeed.Proofs.Storage.Writes
import StoreFeed.Proofs.Polling
import StoreFeed.Proofs.Cluster.Subscriptions
