import StoreFeed.Replica.Failure
import StoreFeed.Sensor.Rate

/-!
# Subscribing

A replica first restores its last checkpoint and acquires a consumer. Then, and at the start of
every cycle, its subscriptions are brought in line with its role, one call at a time: partitions it
has to read no longer are dropped first, then the missing ones are added in order.
-/

namespace StoreFeed.Act

/-- Record how long a step of subscribing took. -/
def stepTook (step : Stats.SubscribeStep) (since : Nat) : Act Unit := do
  record (.stepTook step (Sensor.Rate.seconds ((← now) - since) * 1000))

/-- Start to subscribe. -/
def start : Act Unit := do
  setState .subscribing
  goTo (.restoring (← now))

/-- Go on from the last checkpoint, if there is one. -/
def restoreCheckpoint (since : Nat) : Act Unit := do
  match ← readCheckpoint with
  | .error e => retrySource Operation.checkpoint.label e (.restoring since)
  | .ok checkpoint =>
    match checkpoint with
    | some c => modifySelf (·.restore c)
    | none => pure ()
    stepTook .prepare since
    goTo (.acquiring (← now))

/-- Acquire a consumer. -/
def acquire (since : Nat) : Act Unit := do
  match ← acquireConsumer with
  | .error e => retrySource Operation.acquireConsumer.label e (.acquiring since)
  | .ok c =>
    modifySelf fun r => { r with consumer := some c }
    stepTook .acquire since
    goTo (.aligning true)

/-- Where a partition is to be read from: the version topic and known real-time topics at the
position reached, other real-time topics as far back as the settings say. -/
def startOffset (tp : TopicPartition) : Act (Except IngestionError Nat) := do
  let r ← self
  if tp = r.id.versionTopic then return .ok r.tracker.versionPosition
  match r.tracker.realTimePosition? tp.region with
  | some next => return .ok next
  | none =>
    let rewind ← match r.settings.hybrid with
      | some h => ofWord (Word.mul h.rewindSeconds 1000)
      | none => pure 0
    offsetForTimestamp tp ((← now) - rewind)

/-- The subscriptions are in line with the role. -/
def aligned (first : Bool) : Act Unit := do
  if first then
    sourceRecovered
    setState .bootstrapping
    showStatus
  goTo .polling

/-- Make the next change that brings the subscriptions in line. -/
def align (first : Bool) : Act Unit := do
  let r ← self
  let desired := r.desiredSubscriptions
  let again := Phase.aligning first
  match r.consumer with
  | none => retrySource Operation.subscribe.label noConsumer again
  | some c =>
    match r.subscriptions.diff desired, desired.diff r.subscriptions with
    | tp :: _, _ =>
      match ← unsubscribe c tp with
      | .error e => retrySource Operation.subscribe.label e again
      | .ok () => modifySelf fun r => { r with subscriptions := r.subscriptions.erase tp }
    | [], tp :: _ =>
      match ← startOffset tp with
      | .error e => retrySource Operation.subscribe.label e again
      | .ok offset => goTo (.attaching first tp offset)
    | [], [] => aligned first

/-- Subscribe to a partition. -/
def attach (first : Bool) (tp : TopicPartition) (offset : Nat) : Act Unit := do
  let r ← self
  let again := Phase.aligning first
  match r.consumer with
  | none => retrySource Operation.subscribe.label noConsumer again
  | some c =>
    match ← subscribe c tp offset with
    | .error e => retrySource Operation.subscribe.label e again
    | .ok () =>
      stepTook .subscribe (← now)
      if tp ≠ r.id.versionTopic then
        modifyTracker (·.atRealTimePosition tp.region offset)
      modifySelf fun r => { r with subscriptions := r.subscriptions.add tp }
      goTo again

end StoreFeed.Act
