import StoreFeed.Replica.Calls

/-!
# Showing, retrying and halting

What a replica shows of itself follows its state and flags. A source that is away is tried again
without end, with growing pauses; a record or commit that fails is tried again until the end of the
push was received, and halts the replica after it.
-/

namespace StoreFeed.Act

/-! ## Showing -/

/-- Show the current state, flags and lag. -/
def showStatus : Act Unit := do
  let lag ← ofWord (← self).tracker.snapshot
  modifySelf fun r => { r with
    status :=
      { state := r.state
        role := r.role
        ready := r.state = .online
        errored := r.errored
        pushTimeout := r.pushTimeout
        stale := r.stale
        lag } }

/-- Go to a state and show it. -/
def setState (state : ReplicaState) : Act Unit := do
  let r ← self
  if state ≠ r.state then
    modifyMetrics (·.changeState r.state state)
    modifySelf fun r => { r with state }
    showStatus

/-- Report the lag to the host's statistics. -/
def report : Act Unit := do
  let r ← self
  let lag ← ofWord r.tracker.snapshot
  modifySite fun s => { s with
    stats := s.stats.report r.id.store r.id.version r.id.partition ⟨lag, r.mergeErrorCode⟩ }
  showStatus

/-- Raise the push-timeout flag once the push took too long. -/
def checkPushTimeout : Act Unit := do
  let r ← self
  let elapsed := (← now) - r.startedAt
  let limit := (← settings).bootstrapTimeout
  if !r.pushTimeout && !r.tracker.endOfPush && limit < elapsed then
    modifySelf fun r => { r with pushTimeout := true }
    modifySite fun s => { s with stats := s.stats.setPushTimeout r.id.store r.id.version true }
    showStatus

/-! ## A source that is away -/

/-- A call failed. After the grace period the replica is stale. -/
def onSourceFailure (operation : String) : Act Unit := do
  modifyMetrics (·.retried operation)
  let now ← now
  let since := (← self).failingSince.getD now
  modifySelf fun r => { r with failingSince := some since }
  if !(← self).stale && (← settings).staleGrace ≤ now - since then
    modifySelf fun r => { r with stale := true }
    record .stalePartition
    showStatus

/-- The source answers again. -/
def sourceRecovered : Act Unit := do
  modifySelf fun r => { r with failingSince := none, backoff := r.backoff.reset }
  if (← self).stale then
    modifySelf fun r => { r with stale := false }
    showStatus

/-- Halt, until told to stop. -/
def halt : Act Unit := do
  modifySelf fun r => { r with errored := true }
  let id := (← self).id
  modifySite fun s => { s with stats := s.stats.setErrored id.store id.version true }
  setState .error
  report
  goTo .parked

/-- Pause before a call is tried again in a phase. Wrong settings are no reason to try again. -/
def retrySource (operation : String) (e : IngestionError) (again : Phase) : Act Unit := do
  match e with
  | .configuration _ => halt
  | _ =>
    onSourceFailure operation
    checkPushTimeout
    let (delay, backoff) := (← self).backoff.next
    modifySelf fun r => { r with backoff }
    goTo again
    pause delay

/-! ## A record or commit that fails -/

/-- Try again after a pause, or halt: before the end of the push the pauses are those of the record,
after it only a source that is away is tried again. -/
def processingFailed (e : IngestionError) (backoff : Backoff) (again : Backoff → Phase) :
    Act Unit := do
  if e.isRetriable then retrySource "process" e (again backoff)
  else
    let endOfPush := (← self).tracker.endOfPush
    modifyMetrics (·.failed e.kind endOfPush)
    if e.code ≠ 0 then modifySelf fun r => { r with mergeErrorCode := e.code }
    if endOfPush then halt
    else
      checkPushTimeout
      let (delay, backoff) := backoff.next
      goTo (again backoff)
      pause delay

end StoreFeed.Act
