import StoreFeed.Replica.Cycle
import StoreFeed.Replica.Processing
import StoreFeed.Replica.Subscribing

/-!
# Steps

A replica that does not wait takes a step, which ends its pause or does what its phase says. It is
settled once it waits: for a command, or for some time to pass.
-/

namespace StoreFeed

namespace Act

/-- Do what the phase says. -/
def inPhase : Phase → Act Unit
  | .created => start
  | .restoring since => restoreCheckpoint since
  | .acquiring since => acquire since
  | .aligning first => align first
  | .attaching first tp offset => attach first tp offset
  | .polling => pollBatch
  | .working w => workOn w
  | .committing backoff => commitBatch backoff
  | .safePoint processed => obey processed
  | .promoting processed => promote processed
  | .samplingVersion processed => sampleVersion processed
  | .samplingRegions processed rest => sampleRegion processed rest
  | .concluding processed => conclude processed
  | .parked => waitForStop
  | .leaving => leave
  | .stopped | .killed => pure ()

/-- End a pause early because of a command, or because nobody can send one any more. -/
def wake : Act Unit := do
  modifySelf fun r =>
    match r.inbox with
    | c :: rest => { r.heed c with inbox := rest, wakeAt := none }
    | [] => { r with wakeAt := none, stopRequested := r.stopRequested || !r.connected }
  if (← self).stopRequested then goTo .leaving

/-- The next step of a replica: nothing while it waits, the end of its pause, or what its phase
says. -/
def step : Act Unit := do
  let r ← self
  if r.isWaiting (← now) then pure ()
  else
    match r.wakeAt with
    | some _ => wake
    | none => inPhase r.phase

end Act

namespace Run

/-- Take one step. An overflow ends the task; what it showed last is shown on. -/
def step (run : Run) : Run :=
  match Act.step run with
  | .ok _ run => run
  | .error _ run => { run with replica := { run.replica with phase := .killed, wakeAt := none } }

/-- Whether the replica waits. -/
def isWaiting (run : Run) : Bool := run.replica.isWaiting run.commons.now

/-- A replica that waits does nothing. -/
theorem step_of_isWaiting {run : Run} (h : run.isWaiting) : run.step = run := by
  have h : run.replica.isWaiting run.commons.now = true := h
  have : Act.step run = .ok () run :=
    (congrFun (if_pos h : (if run.replica.isWaiting run.commons.now then (pure () : Act Unit)
      else match run.replica.wakeAt with
        | some _ => Act.wake
        | none => Act.inPhase run.replica.phase) = pure ()) run :)
  simp [step, this]

/-- Take steps until the replica waits, at most `fuel` of them. -/
def settleWithin : Nat → Run → Run
  | 0, run => run
  | fuel + 1, run => if run.isWaiting then run else settleWithin fuel run.step

/-- More steps than a replica takes before it waits. A cycle without a pause processes a record that
was injected or is in the log, at most two times over for each role it is told to take; around the
records a cycle takes a step for each phase, and a few for each region. -/
def stepBound (run : Run) : Nat :=
  let written := Word.total (run.commons.log.partitions.values.map List.length)
  let records := written + run.site.injected.length
  let regions := run.replica.settings.realTimeRegions.length
  (2 * run.replica.inbox.length + 8) * (2 * records + 4) * (5 * regions + 32)

/-- Take steps until the replica waits. -/
def settle (run : Run) : Run := settleWithin run.stepBound run

end Run

end StoreFeed
