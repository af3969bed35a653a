import StoreFeed.Replica.Failure

/-!
# The rest of a cycle

A batch that brought records is committed. At the safe point all commands take effect: a stop ends
the replica, otherwise the last role asked for is taken. Then a leader that reached the end of the
version topic turns to the real-time topics, lag is sampled, and a replica that is caught up goes
online.
-/

namespace StoreFeed.Act

/-- Commit the checkpoint. -/
def commitBatch (backoff : Backoff) : Act Unit := do
  let r ← self
  -- A lag out of range ends the task before anything is committed.
  let _ ← ofWord r.tracker.snapshot
  match ← commit r.checkpoint with
  | .error e => processingFailed e backoff .committing
  | .ok () => goTo (.safePoint true)

/-- Take a role. -/
def takeRole (role : Role) : Act Unit := do
  if role ≠ (← self).role then
    modifyMetrics (·.changeRole role)
    modifySelf fun r => { r with
      role
      tracker := { r.tracker with role }
      consumesRealTime := false
      catchUpTarget := none }
    showStatus

/-- Let all commands take effect. -/
def obey (processed : Bool) : Act Unit := do
  modifySelf fun r => { r.inbox.foldl Replica.heed r with inbox := [] }
  modifySelf fun r => { r with stopRequested := r.stopRequested || !r.connected }
  let r ← self
  if r.stopRequested then goTo .leaving
  else
    match r.pendingRole with
    | some role =>
      modifySelf fun r => { r with pendingRole := none }
      takeRole role
    | none => pure ()
    goTo (.promoting processed)

/-- Turn to the real-time topics once the target is reached. -/
def turnAt (target : Nat) : Act Unit :=
  modifySelf fun r =>
    if target ≤ r.tracker.versionPosition then
      { r with consumesRealTime := true, catchUpTarget := none }
    else r

/-- A hybrid leader past the end of the push has to reach the end that the version topic had when it
first asked; then it turns to the real-time topics. -/
def promote (processed : Bool) : Act Unit := do
  let r ← self
  if r.role = .leader ∧ r.settings.isHybrid ∧ r.tracker.endOfPush ∧ !r.consumesRealTime then
    match r.catchUpTarget with
    | some target => turnAt target
    | none =>
      match ← endOffset r.id.versionTopic with
      | .ok target =>
        modifySelf fun r => { r with catchUpTarget := some target }
        turnAt target
      | .error _ => onSourceFailure Operation.endOffset.label
  goTo (.samplingVersion processed)

/-- Sample the end of the version topic. -/
def sampleVersion (processed : Bool) : Act Unit := do
  let r ← self
  match ← endOffset r.id.versionTopic with
  | .error _ =>
    onSourceFailure Operation.endOffset.label
    goTo (.concluding processed)
  | .ok end_ =>
    modifyTracker (·.withVersionEnd end_)
    if r.settings.isHybrid && r.tracker.endOfPush then
      goTo (.samplingRegions processed r.settings.realTimeRegions)
    else goTo (.concluding processed)

/-- Sample the end of the next real-time topic. A failure ends the sampling. -/
def sampleRegion (processed : Bool) : List (Option RegionId) → Act Unit
  | [] => goTo (.concluding processed)
  | region :: rest => do
    match ← endOffset ((← self).id.realTimeTopic region) with
    | .error _ =>
      onSourceFailure Operation.endOffset.label
      goTo (.concluding processed)
    | .ok end_ =>
      modifyTracker (·.withRealTimeEnd region end_)
      goTo (.samplingRegions processed rest)

/-- Go online when caught up, report, and start the next cycle, after a pause if there was nothing
to process. -/
def conclude (processed : Bool) : Act Unit := do
  let r ← self
  if r.state = .bootstrapping then
    if ← ofWord r.tracker.isCaughtUp then setState .online
  checkPushTimeout
  report
  goTo (.aligning false)
  if !processed then pause (← settings).pollInterval

/-- The task is about to end: forget the report and the state. -/
def retire : Act Unit := do
  let id := (← self).id
  modifySite fun s => { s with stats := s.stats.removePartition id.store id.version id.partition }
  setState .unsubscribed
  modifyMetrics (·.moveState .unsubscribed (-1))
  goTo .stopped

/-- Undo the next subscription, whether that works or not; without subscriptions, end. -/
def leave : Act Unit := do
  let r ← self
  match r.consumer, r.subscriptions.toList with
  | some c, tp :: _ =>
    let _ ← unsubscribe c tp
    modifySelf fun r => { r with subscriptions := r.subscriptions.erase tp }
  | _, _ => retire

/-- Wait for a stop; a halted replica takes no other command. -/
def waitForStop : Act Unit := do
  let r ← self
  match r.inbox with
  | .stop :: rest =>
    modifySelf fun r => { r with inbox := rest }
    goTo .leaving
  | .changeRole _ :: rest => modifySelf fun r => { r with inbox := rest }
  | [] => if r.stopRequested || !r.connected then goTo .leaving

end StoreFeed.Act
