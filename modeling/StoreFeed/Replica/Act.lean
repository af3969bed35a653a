import StoreFeed.Replica.Basic

/-!
# What a replica does

A replica acts on itself, on what its host shares, and on what all hosts share. Arithmetic that goes
out of range breaks off what it does; everything done before stays done.
-/

namespace StoreFeed

/-- A replica with its surroundings. -/
structure Run where
  replica : Replica
  site : Site
  commons : Commons

/-- Something a replica does. An overflow ends its task, and leaves behind what was done before. -/
abbrev Act := EStateM Overflow Run

namespace Act

/-- The replica itself. -/
def self : Act Replica := return (← get).replica

/-- The time. -/
def now : Act Nat := return (← get).commons.now

/-- The settings of the host. -/
def settings : Act HostSettings := return (← get).site.settings

/-- Change the replica. -/
def modifySelf (f : Replica → Replica) : Act Unit :=
  modify fun run => { run with replica := f run.replica }

/-- Change what the host's replicas share. -/
def modifySite (f : Site → Site) : Act Unit := modify fun run => { run with site := f run.site }

/-- Change what is counted. -/
def modifyMetrics (f : Metrics.ReplicaMetrics → Metrics.ReplicaMetrics) : Act Unit :=
  modify fun run => { run with commons := { run.commons with metrics := f run.commons.metrics } }

/-- Change the tracker. -/
def modifyTracker (f : LagTracker → LagTracker) : Act Unit :=
  modifySelf fun r => { r with tracker := f r.tracker }

/-- Go to a phase. -/
def goTo (phase : Phase) : Act Unit := modifySelf fun r => { r with phase }

/-- Pause before the next step. -/
def pause (ms : Nat) : Act Unit := do
  let wakeAt := (← now) + ms
  modifySelf fun r => { r with wakeAt := some wakeAt }

/-- A number that may be out of range. -/
def ofWord {α : Type} : Except Overflow α → Act α
  | .ok a => pure a
  | .error e => throw e

/-- Record an event of the replica's version. -/
def record (e : Stats.Event) : Act Unit :=
  modify fun run =>
    let id := run.replica.id
    { run with
      site := { run.site with
        stats := run.site.stats.record run.commons.now id.store id.version e } }

end Act

end StoreFeed
