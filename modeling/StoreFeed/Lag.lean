import StoreFeed.Topic
import StoreFeed.Word

/-!
# Offset lag

Positions are next offsets: the consumed position is the offset of the next record to read, the end
of a partition is the offset the next appended record will get. Their difference is the number of
records not consumed yet, and is zero where consumption ran ahead of the last sampled end.

Before the end of the push a replica is measured on its version topic. After it, a hybrid leader is
measured on the real-time topics and a hybrid standby on the version topic, which the leader feeds.
-/

namespace StoreFeed

/-- Records not consumed yet. -/
def offsetLag (latest consumed : Nat) : Nat := latest - consumed

/-- The part of a lag above a threshold. -/
def overThreshold (lag threshold : Nat) : Nat := lag - threshold

/-- The lag of a replica at one moment, split into families of which at most one is not zero. -/
structure LagSnapshot where
  role : Role
  hybrid : Bool
  endOfPush : Bool
  startOfBufferReplay : Bool
  leaderBatch : Nat
  leaderHybrid : Nat
  followerBatch : Nat
  followerHybrid : Nat
  /-- Lag behind the real-time topics, once the end of one of them was sampled. -/
  realTime : Option Nat
  threshold : Nat
  regions : SortedMap RegionId Nat
deriving DecidableEq

namespace LagSnapshot

/-- A snapshot in which nothing happened. -/
def initial (role : Role) : LagSnapshot :=
  { role, hybrid := false, endOfPush := false, startOfBufferReplay := false, leaderBatch := 0
    leaderHybrid := 0, followerBatch := 0, followerHybrid := 0, realTime := none, threshold := 0
    regions := SortedMap.empty }

/-- Lag of the leader in either phase. -/
def leader (s : LagSnapshot) : Except Overflow Nat := Word.add s.leaderBatch s.leaderHybrid

/-- Lag of a standby in either phase. -/
def follower (s : LagSnapshot) : Except Overflow Nat := Word.add s.followerBatch s.followerHybrid

/-- Lag of the batch push in either role. -/
def batch (s : LagSnapshot) : Except Overflow Nat := Word.add s.leaderBatch s.followerBatch

/-- Real-time lag above the threshold. -/
def realTimeOverThreshold (s : LagSnapshot) : Nat :=
  match s.realTime with
  | some lag => overThreshold lag s.threshold
  | none => 0

end LagSnapshot

/-- Positions and ends of one replica. -/
structure LagTracker where
  role : Role
  /-- The lag up to which a hybrid version serves reads; none for a version without real-time
  topics. -/
  threshold : Option Nat
  endOfPush : Bool
  startOfBufferReplay : Bool
  versionPosition : Nat
  versionEnd : Nat
  /-- Consumed positions of the real-time topics. -/
  realTimePositions : SortedMap (Option RegionId) Nat
  /-- Sampled ends of the real-time topics. -/
  realTimeEnds : SortedMap (Option RegionId) Nat

namespace LagTracker

/-- A tracker at the start of every topic. -/
def create (role : Role) (threshold : Option Nat) : LagTracker :=
  { role, threshold, endOfPush := false, startOfBufferReplay := false, versionPosition := 0
    versionEnd := 0, realTimePositions := SortedMap.empty, realTimeEnds := SortedMap.empty }

/-- Whether the version has real-time topics. -/
def isHybrid (t : LagTracker) : Bool := t.threshold.isSome

/-- Move to a position of the version topic. -/
def atVersionPosition (t : LagTracker) (next : Nat) : LagTracker :=
  { t with versionPosition := next }

/-- Sample the end of the version topic. -/
def withVersionEnd (t : LagTracker) (end_ : Nat) : LagTracker := { t with versionEnd := end_ }

/-- The consumed position of a real-time topic, if it is known. -/
def realTimePosition? (t : LagTracker) (region : Option RegionId) : Option Nat :=
  t.realTimePositions.find? region

/-- Move forward to a position of a real-time topic; a smaller position changes nothing. -/
def atRealTimePosition (t : LagTracker) (region : Option RegionId) (next : Nat) : LagTracker :=
  let position := max ((t.realTimePosition? region).getD 0) next
  { t with realTimePositions := t.realTimePositions.insert region position }

@[simp]
theorem realTimePosition?_atRealTimePosition_self (t : LagTracker) (region : Option RegionId)
    (next : Nat) : (t.atRealTimePosition region next).realTimePosition? region =
      some (max ((t.realTimePosition? region).getD 0) next) := by
  simp [atRealTimePosition, realTimePosition?]

theorem realTimePosition?_atRealTimePosition_of_ne (t : LagTracker)
    {region region' : Option RegionId} (h : region' ≠ region) (next : Nat) :
    (t.atRealTimePosition region next).realTimePosition? region' = t.realTimePosition? region' := by
  simp [atRealTimePosition, realTimePosition?, SortedMap.find?_insert_of_ne _ h]

/-- Sample the end of a real-time topic. -/
def withRealTimeEnd (t : LagTracker) (region : Option RegionId) (end_ : Nat) : LagTracker :=
  { t with realTimeEnds := t.realTimeEnds.insert region end_ }

/-- Lag behind the version topic. -/
def versionLag (t : LagTracker) : Nat := offsetLag t.versionEnd t.versionPosition

/-- Lag behind one real-time topic. -/
def regionLag (t : LagTracker) (region : Option RegionId) : Nat :=
  offsetLag (t.realTimeEnds.findD region 0) (t.realTimePositions.findD region 0)

/-- Lag behind all sampled real-time topics together, if one was sampled. -/
def realTimeLag (t : LagTracker) : Except Overflow (Option Nat) :=
  if !t.isHybrid || t.realTimeEnds.isEmpty then .ok none
  else return some (← Word.sum (t.realTimeEnds.keys.map t.regionLag))

/-- Real-time lag above the threshold, if both are known. -/
def lagOverThreshold (t : LagTracker) : Except Overflow (Option Nat) :=
  match t.threshold with
  | none => .ok none
  | some threshold => return (← t.realTimeLag).map (overThreshold · threshold)

/-- Whether the replica may serve reads: the push is complete and, for a hybrid version, the
real-time lag is known and within the threshold. -/
def isCaughtUp (t : LagTracker) : Except Overflow Bool :=
  if !t.endOfPush then .ok false
  else
    match t.threshold with
    | none => .ok true
    | some threshold => return match ← t.realTimeLag with
      | some lag => lag ≤ threshold
      | none => false

/-- Lags of the sampled regions. -/
def regionLags (t : LagTracker) : SortedMap RegionId Nat :=
  SortedMap.ofList (t.realTimeEnds.keys.filterMap fun region =>
    region.map fun r => (r, t.regionLag (some r)))

/-- The lag at this moment. -/
def snapshot (t : LagTracker) : Except Overflow LagSnapshot := do
  let realTime ← t.realTimeLag
  let base : LagSnapshot :=
    { LagSnapshot.initial t.role with
      hybrid := t.isHybrid
      endOfPush := t.endOfPush
      startOfBufferReplay := t.startOfBufferReplay
      realTime
      threshold := t.threshold.getD 0
      regions := t.regionLags }
  if !t.endOfPush then
    match t.role with
    | .leader => return { base with leaderBatch := t.versionLag }
    | .standby => return { base with followerBatch := t.versionLag }
  else if t.isHybrid then
    match t.role with
    | .leader => return { base with leaderHybrid := realTime.getD 0 }
    | .standby => return { base with followerHybrid := t.versionLag }
  else return base

end LagTracker

end StoreFeed
