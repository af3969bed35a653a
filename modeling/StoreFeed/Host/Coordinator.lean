import StoreFeed.Replica.Step

/-!
# Starting, stopping and steering replicas

A host keeps a table of its replicas. It starts them, passes on changes of role, and stops them: a
replica that is told to stop leaves the table and is waited for. A replica that was halted by an
error, or whose task was killed, stays in the table until it is stopped or started again.
-/

namespace StoreFeed

/-- A host and its replicas. -/
structure Host where
  site : Site
  replicas : SortedMap ReplicaId Replica
  /-- Replicas that nobody holds any more. They end when they next look for commands. -/
  detached : List Replica

/-- What a host is put together from. -/
structure HostParts where
  settings : HostSettings
  /-- Whether there is a log to read from. -/
  hasSource : Bool
  /-- Whether there is somewhere to write to. -/
  hasStorage : Bool
  /-- Statistics that are shared with others; the host gets its own where there are none. -/
  stats : Option Stats.Aggregator

namespace Host

/-- A host without replicas. -/
def create (settings : HostSettings) : Host := ⟨Site.create settings, SortedMap.empty, []⟩

/-- Put a host together. -/
def build (parts : HostParts) : Except IngestionError Host := do
  parts.settings.validate
  if !parts.hasSource then throw (.configuration "source is required")
  if !parts.hasStorage then throw (.configuration "storage is required")
  let host := create parts.settings
  return { host with site := { host.site with stats := parts.stats.getD host.site.stats } }

/-- The replicas in the table, in order. -/
def replicaIds (h : Host) : List ReplicaId := h.replicas.keys

/-- What a replica shows, if it is in the table. -/
def status? (h : Host) (id : ReplicaId) : Option ReplicaStatus :=
  (h.replicas.find? id).map (·.status)

/-- Whether a replica serves reads. -/
def isReady (h : Host) (id : ReplicaId) : Bool :=
  match h.status? id with
  | some status => status.ready
  | none => false

/-- Whether every replica in the table serves reads. -/
def allReady (h : Host) : Bool := h.replicas.values.all (·.status.ready)

end Host

/-- A host with what it shares with other hosts. -/
structure HostRun where
  host : Host
  commons : Commons

namespace HostRun

/-- How many commands can be sent to a replica before it takes one. -/
def queueCapacity : Nat := 16

/-- Let a replica take its steps until it waits. -/
def runReplica (s : HostRun) (r : Replica) : Replica × HostRun :=
  let run := Run.settle ⟨r, s.host.site, s.commons⟩
  (run.replica, ⟨{ s.host with site := run.site }, run.commons⟩)

/-- Send a command, once there is room for it. A task that has ended takes none. -/
def deliver (s : HostRun) (r : Replica) (c : Command) : Replica × HostRun :=
  let (r, s) := if queueCapacity ≤ r.inbox.length then s.runReplica r else (r, s)
  (if r.isFinished then r else r.send c, s)

/-- Change the number of replicas that were started and not stopped. -/
def countActive (s : HostRun) (change : Int) : HostRun :=
  let m := s.commons.metrics
  { s with commons := { s.commons with metrics := { m with active := m.active + change } } }

/-- Change the statistics. -/
def modifyStats (s : HostRun) (f : Stats.Aggregator → Stats.Aggregator) : HostRun :=
  { s with host := { s.host with site := { s.host.site with stats := f s.host.site.stats } } }

/-- Change the table. -/
def modifyTable (s : HostRun) (f : SortedMap ReplicaId Replica → SortedMap ReplicaId Replica) :
    HostRun :=
  { s with host := { s.host with replicas := f s.host.replicas } }

/-- Tell a replica to stop and wait for its task, which fails where the task did not end by
itself. -/
def join (s : HostRun) (r : Replica) : Except IngestionError Unit × HostRun :=
  let (r, s) := s.deliver r .stop
  let (r, s) := s.runReplica r
  let answer := match r.phase with
    | .stopped => .ok ()
    | _ => .error .join
  (answer, s.countActive (-1))

/-- Put a new replica into the table. -/
def launch (s : HostRun) (id : ReplicaId) (settings : VersionSettings) (role : Role) : HostRun :=
  let s := s.modifyStats (·.register s.commons.now id.store id.version settings.profile)
  let s := s.modifyStats (·.setErrored id.store id.version false)
  let s := { s with
    commons := { s.commons with metrics := s.commons.metrics.moveState .notSubscribed 1 } }
  let replica := Replica.create id settings role s.host.site.settings s.commons.now
  (s.countActive 1).modifyTable (·.insert id replica)

/-- Why a replica is not started. -/
def runningDifferently (id : ReplicaId) : IngestionError :=
  .configuration ("replica " ++ id.label ++ " is already running with a different configuration")

/-- Start a replica. One that is running already must have the same settings; one that was halted or
killed is stopped first and replaced. -/
def start (s : HostRun) (id : ReplicaId) (settings : VersionSettings) (role : Role) :
    Except IngestionError Unit × HostRun :=
  match settings.validate with
  | .error e => (.error e, s)
  | .ok () =>
    match s.host.replicas.find? id with
    | none => (.ok (), s.launch id settings role)
    | some r =>
      if r.isRunning then
        (if r.settings.same settings then .ok () else .error (runningDifferently id), s)
      else
        match (s.modifyTable (·.erase id)).join r with
        | (.ok (), s) => (.ok (), s.launch id settings role)
        | (.error e, s) => (.error e, s)

/-- Stop a replica. One that is not in the table is ignored. -/
def stop (s : HostRun) (id : ReplicaId) : Except IngestionError Unit × HostRun :=
  match s.host.replicas.find? id with
  | none => (.ok (), s)
  | some r => (s.modifyTable (·.erase id)).join r

/-- Pass on a change of role. One that reaches nobody is recorded as a stale partition. -/
def changeRole (s : HostRun) (id : ReplicaId) (role : Role) : HostRun :=
  let missed (s : HostRun) : HostRun :=
    s.modifyStats (·.record s.commons.now id.store id.version .stalePartition)
  match s.host.replicas.find? id with
  | none => missed s
  | some r =>
    let (r, s) := s.deliver r (.changeRole role)
    let s := s.modifyTable (·.insert id r)
    if r.isFinished then missed s else s

/-- Stop some replicas, one after the other. Where one of them did not end by itself, the rest are
let go without waiting for them. -/
def joinAll (s : HostRun) : List Replica → Except IngestionError Unit × HostRun
  | [] => (.ok (), s)
  | r :: rest =>
    match s.join r with
    | (.ok (), s) => s.joinAll rest
    | (.error e, s) =>
      let gone := rest.map fun r => { r with connected := false }
      (.error e, { s with host := { s.host with detached := s.host.detached ++ gone } })

/-- The first of some replicas that stopping them has to wait for. There is none where all have
ended, or where one that was killed comes before it. -/
def firstAwaited? : List Replica → Option ReplicaId
  | [] => none
  | r :: rest =>
    match r.phase with
    | .stopped => firstAwaited? rest
    | .killed => none
    | _ => some r.id

/-- Stop the replicas of the table in some order. -/
def shutdownIn (s : HostRun) (order : List Replica) : Except IngestionError Unit × HostRun :=
  (s.modifyTable fun _ => SortedMap.empty).joinAll order

/-- Stop all replicas. -/
def shutdown (s : HostRun) : Except IngestionError Unit × HostRun :=
  s.shutdownIn s.host.replicas.values

/-! ## Letting replicas run -/

/-- Let the replicas of the table run until they wait, but for some. -/
def settleTable (s : HostRun) (skip : ReplicaId → Bool) : HostRun :=
  s.host.replicas.keys.foldl
    (fun s id =>
      match s.host.replicas.find? id with
      | some r =>
        if skip id then s
        else
          let (r, s) := s.runReplica r
          s.modifyTable (·.insert id r)
      | none => s)
    s

/-- Let the replicas that nobody holds run until they wait; those that ended are forgotten. -/
def settleDetached (s : HostRun) : HostRun :=
  let (s, left) := s.host.detached.foldl
    (fun (s, left) r =>
      let (r, s) := s.runReplica r
      (s, if r.isFinished then left else left ++ [r]))
    (s, [])
  { s with host := { s.host with detached := left } }

/-- Let all replicas run until they wait, but for some. -/
def settleBut (s : HostRun) (skip : ReplicaId → Bool) : HostRun :=
  (s.settleTable skip).settleDetached

/-- The replicas that the host runs. -/
def running (s : HostRun) : List Replica := s.host.replicas.values ++ s.host.detached

end HostRun

end StoreFeed
