import StoreFeed.Host.Site
import StoreFeed.Replica.Backoff

/-!
# A replica

A replica runs in steps. Its `Phase` says what the next step does, and each step makes at most one
call to the log or to storage, so that whatever else happens in a cluster may happen between any two
calls. A replica that pauses takes no step before its time has come, unless it is sent a command.

A cycle aligns the subscriptions, polls, works through the batch record by record, commits, and
reaches the safe point, where commands take effect; then it samples lag and reports.
-/

namespace StoreFeed

/-- What is to be done next to a record. -/
inductive Stage where
  /-- Nothing was done to it yet. -/
  | fresh
  /-- Merge an update into the stored value. -/
  | merge (update : PartialUpdate)
  /-- Open the topic that the value, or the deletion, is to be published in. -/
  | openTopic (value : Option ByteArray)
  /-- Publish the value, or the deletion. -/
  | publish (value : Option ByteArray)
  /-- Write the value, or the deletion, under an offset of the version topic. -/
  | write (value : Option ByteArray) (offset : Nat)

/-- A record that is being processed. -/
structure Work where
  topic : TopicPartition
  record : ChangeRecord
  stage : Stage
  /-- Pauses before the record is tried again. -/
  backoff : Backoff
  /-- The rest of the batch. -/
  rest : List (TopicPartition × ChangeRecord)

/-- What the next step does. `processed` says whether the batch of the cycle brought a record. -/
inductive Phase where
  /-- Start to subscribe. -/
  | created
  /-- Read the last checkpoint. -/
  | restoring (since : Nat)
  /-- Acquire a consumer. -/
  | acquiring (since : Nat)
  /-- Bring the subscriptions in line with the role; `first` where that ends subscribing. -/
  | aligning (first : Bool)
  /-- Subscribe to a partition whose start is known. -/
  | attaching (first : Bool) (tp : TopicPartition) (offset : Nat)
  /-- Poll a batch. -/
  | polling
  /-- Process a record. -/
  | working (w : Work)
  /-- Commit the checkpoint. -/
  | committing (backoff : Backoff)
  /-- Let commands take effect. -/
  | safePoint (processed : Bool)
  /-- Let a leader that caught up turn to the real-time topics. -/
  | promoting (processed : Bool)
  /-- Sample the end of the version topic. -/
  | samplingVersion (processed : Bool)
  /-- Sample the ends of real-time topics. -/
  | samplingRegions (processed : Bool) (rest : List (Option RegionId))
  /-- Evaluate readiness and report. -/
  | concluding (processed : Bool)
  /-- Halted by an error, until it is told to stop. -/
  | parked
  /-- Undo the subscriptions and leave. -/
  | leaving
  /-- The task ended. -/
  | stopped
  /-- The task was ended by an overflow. -/
  | killed

/-- A replica. -/
structure Replica where
  id : ReplicaId
  settings : VersionSettings
  phase : Phase
  /-- The time up to which it pauses before its next step. -/
  wakeAt : Option Nat
  state : ReplicaState
  role : Role
  tracker : LagTracker
  consumer : Option Consumer
  subscriptions : SortedSet TopicPartition
  /-- Whether it is a leader that caught up on the version topic and reads the real-time topics. -/
  consumesRealTime : Bool
  /-- The end of the version topic that a new leader has to reach first. -/
  catchUpTarget : Option Nat
  /-- The role to take at the next safe point. -/
  pendingRole : Option Role
  stopRequested : Bool
  errored : Bool
  pushTimeout : Bool
  stale : Bool
  /-- The code of the last merge failure, zero after a success. -/
  mergeErrorCode : Int
  /-- Since when calls have been failing. -/
  failingSince : Option Nat
  /-- Pauses before the source is tried again. -/
  backoff : Backoff
  startedAt : Nat
  /-- Commands it has not taken yet. -/
  inbox : List Command
  /-- Whether anybody can still send it commands. -/
  connected : Bool
  /-- What it shows of itself. -/
  status : ReplicaStatus

namespace Replica

/-- A replica that is about to start. -/
def create (id : ReplicaId) (settings : VersionSettings) (role : Role) (host : HostSettings)
    (now : Nat) : Replica :=
  { id
    settings
    phase := .created
    wakeAt := none
    state := .notSubscribed
    role
    tracker := LagTracker.create role settings.lagThreshold?
    consumer := none
    subscriptions := SortedMap.empty
    consumesRealTime := false
    catchUpTarget := none
    pendingRole := none
    stopRequested := false
    errored := false
    pushTimeout := false
    stale := false
    mergeErrorCode := 0
    failingSince := none
    backoff := Backoff.ofSettings host
    startedAt := now
    inbox := []
    connected := true
    status := ReplicaStatus.initial role }

/-- Whether its task has ended. -/
def isFinished (r : Replica) : Bool :=
  match r.phase with
  | .stopped | .killed => true
  | _ => false

/-- Whether it is consuming: its task has not ended and it was not halted by an error. -/
def isRunning (r : Replica) : Bool := !r.isFinished && r.status.state != .error

/-- Whether it takes a step only after a command or, if it pauses, after some time. -/
def isWaiting (r : Replica) (now : Nat) : Bool :=
  match r.phase with
  | .stopped | .killed => true
  | .parked => r.inbox.isEmpty && r.connected && !r.stopRequested
  | _ =>
    match r.wakeAt with
    | some t => r.inbox.isEmpty && r.connected && now < t
    | none => false

/-- Take a command to heart. -/
def heed (r : Replica) : Command → Replica
  | .changeRole role => { r with pendingRole := some role }
  | .stop => { r with stopRequested := true }

/-- Send it a command. -/
def send (r : Replica) (c : Command) : Replica := { r with inbox := r.inbox ++ [c] }

/-- The partitions it has to read: as a leader that caught up the real-time topics, otherwise the
version topic. -/
def desiredSubscriptions (r : Replica) : SortedSet TopicPartition :=
  if r.role = .leader ∧ r.consumesRealTime then
    SortedSet.ofMembers (r.settings.realTimeRegions.map r.id.realTimeTopic)
  else SortedSet.ofMembers [r.id.versionTopic]

/-- How far it has come. -/
def checkpoint (r : Replica) : Checkpoint :=
  { versionOffset := r.tracker.versionPosition
    endOfPush := r.tracker.endOfPush
    startOfBufferReplay := r.tracker.startOfBufferReplay
    realTime := r.settings.realTimeRegions.filterMap fun region =>
      (r.tracker.realTimePosition? region).map fun offset => ⟨region, offset⟩ }

/-- Go on from a checkpoint. -/
def restore (r : Replica) (c : Checkpoint) : Replica :=
  let t := r.tracker.atVersionPosition c.versionOffset
  let t := { t with
    endOfPush := t.endOfPush || c.endOfPush
    startOfBufferReplay := t.startOfBufferReplay || c.startOfBufferReplay }
  { r with tracker := c.realTime.foldl (fun t p => t.atRealTimePosition p.region p.offset) t }

end Replica

end StoreFeed
