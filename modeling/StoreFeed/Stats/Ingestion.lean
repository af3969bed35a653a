import StoreFeed.Lag
import StoreFeed.Sensor.Rate
import StoreFeed.Settings

/-!
# Ingestion statistics

The payload of one scope: rates and latencies that are recorded into it, two flags, and the last
report of every partition. Lags are summed over the reported partitions.

Some figures use negative codes for what they cannot say: that there is no payload, that no
partition is being ingested, or that no reported version is hybrid.
-/

namespace StoreFeed.Stats

open Sensor

/-- What a figure shows in place of a number. -/
inductive Sentinel where
  | noStats
  | inactive
  | onlyHybrid
deriving DecidableEq

namespace Sentinel

/-- The code shown. -/
def code : Sentinel → Int
  | .noStats => -1
  | .inactive => -2
  | .onlyHybrid => -3

/-- The code as a figure. -/
def value (s : Sentinel) : Float := Float.ofInt s.code

end Sentinel

/-- A partition of a version. -/
structure PartitionKey where
  version : UInt32
  partition : UInt32
deriving DecidableEq

namespace PartitionKey

instance : Ord PartitionKey := ⟨compareLex (compareOn version) (compareOn partition)⟩

instance : Std.TransOrd PartitionKey :=
  inferInstanceAs (Std.TransCmp (compareLex (compareOn version) (compareOn partition)))

instance : Std.LawfulEqOrd PartitionKey where
  eq_of_compare {a b} h := by
    obtain ⟨hv, hp⟩ : compare a.version b.version = .eq ∧
        compare a.partition b.partition = .eq := Ordering.then_eq_eq.1 h
    cases a
    cases b
    simp_all

end PartitionKey

/-- What a replica reports after each cycle. -/
structure PartitionReport where
  lag : LagSnapshot
  /-- The code of the last merge failure, zero after a success. -/
  mergeErrorCode : Int

/-- What is consumed from one region. -/
structure RegionRates where
  bytes : Rate Float
  records : Rate Float

/-- A step of subscribing whose duration is recorded. -/
inductive SubscribeStep where
  | prepare
  | acquire
  | subscribe
deriving DecidableEq

/-- Something that is recorded. -/
inductive Event where
  | recordsConsumed (n : Nat)
  | bytesConsumed (n : Nat)
  | recordsConsumedAs (role : Role) (n : Nat)
  | bytesConsumedAs (role : Role) (n : Nat)
  | recordsProduced (n : Nat)
  | bytesProduced (n : Nat)
  | recordsConsumedFrom (region : RegionId) (n : Nat)
  | bytesConsumedFrom (region : RegionId) (n : Nat)
  | stalePartition
  | stepTook (step : SubscribeStep) (ms : Float)

/-- The statistics of one scope. -/
structure IngestionStats where
  recordsConsumed : Rate Float
  bytesConsumed : Rate Float
  leaderRecordsConsumed : Rate Float
  leaderBytesConsumed : Rate Float
  followerRecordsConsumed : Rate Float
  followerBytesConsumed : Rate Float
  leaderRecordsProduced : Rate Float
  leaderBytesProduced : Rate Float
  regions : SortedMap RegionId RegionRates
  stalePartitions : Count
  prepareLatency : Latency
  acquireLatency : Latency
  subscribeLatency : Latency
  errored : Bool
  pushTimeout : Bool
  partitions : SortedMap PartitionKey PartitionReport

namespace IngestionStats

/-! ## Recording -/

/-- Make sure that the regions of an active-active version are recorded. -/
def ensureRegions (s : IngestionStats) (now : Int) (profile : ReplicaProfile) : IngestionStats :=
  if profile.activeActive then
    { s with
      regions := profile.regions.keys.foldl
        (fun m r => m.insertNew r ⟨.start Rate.standardWindow now, .start Rate.standardWindow now⟩)
        s.regions }
  else s

/-- Statistics with nothing recorded. -/
def start (now : Int) (profile : ReplicaProfile) : IngestionStats :=
  let rate := Rate.start Rate.standardWindow now
  let s : IngestionStats :=
    { recordsConsumed := rate
      bytesConsumed := rate
      leaderRecordsConsumed := rate
      leaderBytesConsumed := rate
      followerRecordsConsumed := rate
      followerBytesConsumed := rate
      leaderRecordsProduced := rate
      leaderBytesProduced := rate
      regions := SortedMap.empty
      stalePartitions := Count.empty
      prepareLatency := Latency.empty
      acquireLatency := Latency.empty
      subscribeLatency := Latency.empty
      errored := false
      pushTimeout := false
      partitions := SortedMap.empty }
  s.ensureRegions now profile

/-- Record an event. What is consumed from a region that is not recorded is dropped. -/
def record (s : IngestionStats) (now : Int) : Event → IngestionStats
  | .recordsConsumed n =>
    { s with recordsConsumed := s.recordsConsumed.record now (Word.toFloat n) }
  | .bytesConsumed n => { s with bytesConsumed := s.bytesConsumed.record now (Word.toFloat n) }
  | .recordsConsumedAs .leader n =>
    { s with leaderRecordsConsumed := s.leaderRecordsConsumed.record now (Word.toFloat n) }
  | .recordsConsumedAs .standby n =>
    { s with followerRecordsConsumed := s.followerRecordsConsumed.record now (Word.toFloat n) }
  | .bytesConsumedAs .leader n =>
    { s with leaderBytesConsumed := s.leaderBytesConsumed.record now (Word.toFloat n) }
  | .bytesConsumedAs .standby n =>
    { s with followerBytesConsumed := s.followerBytesConsumed.record now (Word.toFloat n) }
  | .recordsProduced n =>
    { s with leaderRecordsProduced := s.leaderRecordsProduced.record now (Word.toFloat n) }
  | .bytesProduced n =>
    { s with leaderBytesProduced := s.leaderBytesProduced.record now (Word.toFloat n) }
  | .recordsConsumedFrom region n =>
    { s with
      regions := s.regions.modify region fun rates =>
        { rates with records := rates.records.record now (Word.toFloat n) } }
  | .bytesConsumedFrom region n =>
    { s with
      regions := s.regions.modify region fun rates =>
        { rates with bytes := rates.bytes.record now (Word.toFloat n) } }
  | .stalePartition => { s with stalePartitions := s.stalePartitions.record }
  | .stepTook .prepare ms => { s with prepareLatency := s.prepareLatency.record ms }
  | .stepTook .acquire ms => { s with acquireLatency := s.acquireLatency.record ms }
  | .stepTook .subscribe ms => { s with subscribeLatency := s.subscribeLatency.record ms }

/-- Keep the report of a partition in place of its last one. -/
def report (s : IngestionStats) (key : PartitionKey) (report : PartitionReport) : IngestionStats :=
  { s with partitions := s.partitions.insert key report }

/-- Forget the report of a partition. -/
def removePartition (s : IngestionStats) (key : PartitionKey) : IngestionStats :=
  { s with partitions := s.partitions.erase key }

/-- Forget the reports of a version. -/
def removeVersion (s : IngestionStats) (version : UInt32) : IngestionStats :=
  { s with partitions := s.partitions.filter fun key _ => key.version != version }

/-! ## Lags, zero while no partition reports -/

/-- A lag summed over all reports. -/
def sumLag (s : IngestionStats) (lag : LagSnapshot → Except Overflow Nat) :
    Except Overflow Float := do
  let lags ← s.partitions.values.mapM fun r => lag r.lag
  return Word.toFloat (← Word.sum lags)

/-- Lag of the batch push. -/
def batchLag (s : IngestionStats) : Except Overflow Float := s.sumLag LagSnapshot.batch

/-- Lag of leaders. -/
def leaderLag (s : IngestionStats) : Except Overflow Float := s.sumLag LagSnapshot.leader

/-- Lag of leaders in the batch push. -/
def leaderBatchLag (s : IngestionStats) : Except Overflow Float := s.sumLag (.ok ·.leaderBatch)

/-- Lag of leaders after the batch push. -/
def leaderHybridLag (s : IngestionStats) : Except Overflow Float := s.sumLag (.ok ·.leaderHybrid)

/-- Lag of standbys. -/
def followerLag (s : IngestionStats) : Except Overflow Float := s.sumLag LagSnapshot.follower

/-- Lag of standbys in the batch push. -/
def followerBatchLag (s : IngestionStats) : Except Overflow Float := s.sumLag (.ok ·.followerBatch)

/-- Lag of standbys after the batch push. -/
def followerHybridLag (s : IngestionStats) : Except Overflow Float :=
  s.sumLag (.ok ·.followerHybrid)

/-- Lag behind one region. -/
def regionLag (s : IngestionStats) (region : RegionId) : Except Overflow Float :=
  s.sumLag fun lag => .ok (lag.regions.findD region 0)

/-! ## Readiness, a code while no partition reports -/

/-- The reports of hybrid versions. -/
def hybridReports (s : IngestionStats) : List PartitionReport :=
  s.partitions.values.filter (·.lag.hybrid)

/-- Real-time lag. -/
def realTimeLag (s : IngestionStats) : Except Overflow Float :=
  if s.partitions.isEmpty then .ok Sentinel.inactive.value
  else if s.hybridReports.isEmpty then .ok Sentinel.onlyHybrid.value
  else return Word.toFloat (← Word.sum (s.hybridReports.map fun r => r.lag.realTime.getD 0))

/-- Real-time lag above the largest threshold; zero while no partition reports. -/
def realTimeLagOverThreshold (s : IngestionStats) : Except Overflow Float :=
  if s.partitions.isEmpty then .ok 0
  else if s.hybridReports.isEmpty then .ok Sentinel.onlyHybrid.value
  else do
    let lag ← Word.sum (s.hybridReports.map fun r => r.lag.realTime.getD 0)
    let threshold := (s.hybridReports.map (·.lag.threshold)).foldl max 0
    return Word.toFloat (overThreshold lag threshold)

/-- How many hybrid partitions have not seen the start of the buffer replay. -/
def awaitingBufferReplay (s : IngestionStats) : Float :=
  if s.partitions.isEmpty then Sentinel.inactive.value
  else
    Word.toFloat (s.partitions.values.filter fun r =>
      r.lag.hybrid && !r.lag.startOfBufferReplay).length

/-- The largest code of a merge failure. -/
def mergeErrorCode (s : IngestionStats) : Float :=
  match s.partitions.values.map (·.mergeErrorCode) with
  | [] => Sentinel.inactive.value
  | code :: codes => Float.ofInt (codes.foldl max code)

/-- One if leaders lag although they consume nothing. -/
def leaderStalled (s : IngestionStats) (now : Int) : Except Overflow Float × IngestionStats :=
  if s.partitions.isEmpty then (.ok Sentinel.inactive.value, s)
  else
    match s.leaderLag with
    | .error e => (.error e, s)
    | .ok lag =>
      if lag > 0 then
        let (rate, bytes) := s.leaderBytesConsumed.measure now
        (.ok (if rate == 0 then 1 else 0), { s with leaderBytesConsumed := bytes })
      else (.ok 0, s)

/-! ## Flags and counts -/

private def flag (b : Bool) : Float := if b then 1 else 0

/-- One if a replica failed. -/
def erroredFlag (s : IngestionStats) : Float := flag s.errored

/-- One if the push did not end in time. -/
def pushTimeoutFlag (s : IngestionStats) : Float := flag s.pushTimeout

/-- Bytes per second from a region. -/
def regionBytes (s : IngestionStats) (region : RegionId) (now : Int) : Float × IngestionStats :=
  match s.regions.find? region with
  | none => (0, s)
  | some rates =>
    let (v, bytes) := rates.bytes.measure now
    (v, { s with regions := s.regions.insert region { rates with bytes } })

/-- Records per second from a region. -/
def regionRecords (s : IngestionStats) (region : RegionId) (now : Int) : Float × IngestionStats :=
  match s.regions.find? region with
  | none => (0, s)
  | some rates =>
    let (v, records) := rates.records.measure now
    (v, { s with regions := s.regions.insert region { rates with records } })

end IngestionStats

end StoreFeed.Stats
